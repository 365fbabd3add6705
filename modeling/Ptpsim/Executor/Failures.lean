/-
# After a failure

A failure ends the run unless a step goes on after it, and a step goes on only
if it has a reason to (`Covers`): the camera has refused something and the
step is tolerant, selects the response for another attempt or has a literal
for it; a payload could not be decoded and the step selects that; or an event
did not come on a connection that may lose events. What is left, a transport
that fails, a deadline, frames that make no sense, a sink that refuses, ends
the run. What the walk keeps is `Advanced`: the events it adds are in order, and
a failure that it ends with is the one that is pending.
-/
import Ptpsim.Executor.Walks

namespace Ptpsim.Executor

open Ptpsim.Core Config
open Interrupt hiding Exec

/-! ### What the walk keeps -/

structure Advanced {τ : Type} (setup : Setup) (host : Host τ) (here : Path) (c : PtpCtx τ)
    (e : Stopped) (c' : PtpCtx τ) : Prop where
  located : ∀ err, e = some (.failed err) → here <+: err.step
  dropped : ∀ level clock, e = some (.dropped level clock) → host.Drops
  traced : ∃ added, c'.trace = c.trace ++ added ∧ Watched setup added (Interrupt.failure e)

section Walk

variable {τ : Type} {setup : Setup} {host : Host τ} {here : Path}

theorem advanced_composes : Composes (Advanced setup host here) where
  refl c := ⟨by simp, by simp, [], by simp, watched_nil setup⟩
  trans := by
    rintro c c₁ c₂ e ⟨-, -, added, ht, hw⟩ ⟨hl, hd, added', ht', hw'⟩
    exact ⟨hl, hd, added ++ added', by rw [ht', ht, List.append_assoc], hw.append hw'⟩

theorem Advanced.silent {c c₁ c₂ : PtpCtx τ} {e : Stopped}
    (h : Advanced setup host here c e c₁) (added : List Event) (ht : c₂.trace = c₁.trace ++ added)
    (hs : ∀ event ∈ added, Passes setup event) :
    Advanced setup host here c e c₂ := by
  obtain ⟨hl, hd, events, he, hw⟩ := h
  exact ⟨hl, hd, events ++ added, by rw [ht, he, List.append_assoc], hw.append_silent hs⟩

theorem Advanced.resumed {c c₁ : PtpCtx τ} {e : StepError}
    (h : Advanced setup host here c (some (.failed e)) c₁) (step : EntryStep)
    (hc : ∀ last, here <+: e.step → Covers setup last step here e) :
    Advanced setup host here c none (c₁.record (.resumed step here e)) := by
  obtain ⟨hl, -, events, he, hw⟩ := h
  refine ⟨by simp, by simp, events ++ [.resumed step here e], by simp [PtpCtx.record, he], ?_⟩
  exact hw.resumed fun last => hc last (hl e rfl)

theorem Described.silent (setup : Setup) {c c' : PtpCtx τ} (h : Described c c') : ∃ added,
    c'.trace = c.trace ++ added ∧ ∀ event ∈ added, Passes setup event := by
  obtain ⟨⟨added, ht⟩, -, -⟩ := h
  refine ⟨_, ht, fun event hmem => ?_⟩
  obtain ⟨e, -, rfl⟩ := List.mem_map.mp hmem
  exact fun w hw => ⟨hw, rfl⟩

theorem Advanced.described {c c₁ c₂ : PtpCtx τ} {e : Stopped} (h : Advanced setup host here c e c₁)
    (ha : Described c₁ c₂) : Advanced setup host here c e c₂ := by
  obtain ⟨added, ht, hs⟩ := ha.silent setup
  exact h.silent added ht hs

theorem advanced_rules : Rules setup host (Advanced setup host) where
  composes here := advanced_composes
  inside hp h := ⟨fun err herr => hp.trans (h.located err herr), h.dropped, h.traced⟩
  exchanged h := by
    obtain ⟨added, ht, -, hw⟩ := h.traced
    exact ⟨fun err herr => by rw [h.located err herr], h.dropped, added, ht, hw⟩
  rescoped h hs := h.silent [] (by simp [hs.trace]) (by simp)
  late h := ⟨by simp, by simp, h.traced⟩
  outer h := ⟨by simp, fun _ _ _ => h.dropped _ _ rfl, h.traced⟩
  halted := ⟨by simp, by simp, [], by simp, watched_nil setup⟩

/-! ### Reports and retries -/

theorem advances_emit {event : Event} (h : Passes setup event) :
    Kept (Advanced setup host here) (emit event : Exec τ PUnit) :=
  Kept.modify fun c => (advanced_composes.refl c).silent [event] rfl (by simpa using h)

theorem advances_modify {f : PtpCtx τ → PtpCtx τ} (h : ∀ c, (f c).trace = c.trace) :
    Kept (Advanced setup host here) (modify f : Exec τ PUnit) :=
  Kept.modify fun c => (advanced_composes.refl c).silent [] (by simp [h]) (by simp)

theorem advances_reportStep (step : EntryStep) {body : Exec τ (Option TxMeta)}
    (h : Kept (Advanced setup host here) body) :
    Kept (Advanced setup host here) (reportStep setup step here body) := by
  refine advanced_rules.get_bind fun c => ?_
  refine advanced_rules.bind (advances_emit fun _ hw => ⟨hw, rfl⟩) fun _ => ?_
  refine advanced_rules.bind (advances_modify fun _ => rfl) fun _ => ?_
  refine Kept.attempt_bind advanced_composes (advanced_rules.withStepClock step h) ?_ ?_
  · intro txMeta c₁
    obtain ⟨m, r, -, hend⟩ := concludeStep_ok setup step here c.activityCorrelation txMeta c₁
    rw [hend]
    exact (advanced_composes.refl c₁).silent [.report r] rfl (by simp [Passes, Watch.moves])
  · intro e c₁ c₂ hf
    obtain ⟨r, -, ⟨ht, hcls, hend⟩ | hend⟩ := concludeStep_error setup step
      here c.activityCorrelation e c₂
    · rw [hend]
      have hr := hf.resumed step fun _ hi =>
        ⟨hi, .inl ⟨ht, hcls⟩⟩
      exact hr.silent [.report r] rfl (by simp [Passes, Watch.moves])
    · rw [hend]
      exact hf.silent [.report r] rfl (by simp [Passes, Watch.moves])

section Retry

variable {step : EntryStep} {selects : StepError → Bool} {primary fallback : Exec τ (Option TxMeta)}

theorem advanced_retryGivesUp {hasFallback : Bool} {number : ℕ} {e : StepError} {c c₁ : PtpCtx τ}
    (hs : ∀ last, selects e = true → here <+: e.step → Covers setup last step here e)
    (hf : Kept (Advanced setup host here) fallback)
    (h : Advanced setup host here c (some (.failed e)) c₁) :
    Advanced setup host here c
      (ending (retryGivesUp step here selects hasFallback fallback number e c₁))
      (final (retryGivesUp step here selects hasFallback fallback number e c₁)) := by
  have hset : Advanced setup host here c (some (.failed e))
    { c₁ with controlAttempts := some (number - 1) } :=
    h.silent [] (by simp) (by simp)
  unfold retryGivesUp
  split
  case isTrue hse =>
    have hr := hset.resumed step fun last hi =>
      hs last (by simp_all) hi
    exact advanced_composes.trans hr (hf _)
  case isFalse => exact hset

theorem advances_retryAttempt {failed : StepError → Exec τ (Option TxMeta)} {number : ℕ}
    (hp : Kept (Advanced setup host here) primary)
    (hr : ∀ e c c₁, Advanced setup host here c (some (.failed e)) c₁ →
      Advanced setup host here c (ending (failed e c₁)) (final (failed e c₁))) :
    Kept (Advanced setup host here) (retryAttempt here primary failed number) := by
  refine advanced_rules.bind (advances_emit fun _ hw => ⟨hw, rfl⟩) fun _ => ?_
  refine Kept.attempt_bind advanced_composes hp (fun txMeta => ?_) hr
  exact advanced_rules.bind (advances_modify fun _ => rfl) fun _ => advanced_rules.pure txMeta

theorem advances_retryFrom {limit : ℕ} {delayMs : UInt32} {hasFallback : Bool}
    (hs : ∀ last e, selects e = true → here <+: e.step → Covers setup last step here e)
    (hp : Kept (Advanced setup host here) primary)
    (hfa : Kept (Advanced setup host here) fallback) :
    ∀ left number, Kept (Advanced setup host here) (retryFrom host step here selects limit delayMs
      primary hasFallback fallback left number) := by
  intro left
  induction left with
  | zero =>
    intro number
    refine advances_retryAttempt hp fun e c c₁ hf => ?_
    exact advanced_retryGivesUp (fun last => hs last e) hfa hf
  | succ left ih =>
    intro number
    refine advances_retryAttempt hp fun e c c₁ hf => ?_
    split
    case isTrue hse =>
      have hre := hf.resumed step fun last => hs last e hse
      have ha := ih (number + 1)
      have hr : Kept (Advanced setup host here) (do
          modify (PtpCtx.retryActivity (number + 1) limit e)
          if 0 < delayMs then pause host delayMs here
          retryFrom host step here selects limit delayMs primary hasFallback fallback left
            (number + 1) : Exec τ (Option TxMeta)) := by
        refine advanced_rules.bind (Kept.modify fun c =>
          (advanced_composes.refl c).described (retryActivity_described _ _ _ c)) fun _ => ?_
        refine Kept.ite (fun _ => ?_) fun _ => ha
        exact advanced_rules.bind (advanced_rules.leaf (exchanges_pause delayMs)) fun _ => ha
      exact advanced_composes.trans hre (hr _)
    case isFalse => exact advanced_retryGivesUp (fun last => hs last e) hfa hf

end Retry

theorem advanced_walkRules : WalkRules setup host (Advanced setup host) fun _ => True where
  toRules := advanced_rules
  looped {here c c₁ e event} he h := by
    refine h.silent [event] rfl ?_
    cases event <;> simp_all [Event.IsElement, Passes, Watch.moves]
  unbound collection _ := ⟨by rintro _ ⟨⟩; exact List.prefix_refl _, by rintro _ _ ⟨⟩, [_], rfl,
    watched_failed setup fun h => by simp [StepError.other] at h⟩
  reported _ h := advances_reportStep _ h
  retried {steps fallbackSteps codes classes maxAttempts delayMs tolerant here primary fallback}
      _ hp hf := by
    have hc : ∀ last e, retrySelects codes classes e = true → here <+: e.step →
        Covers setup last (.retry steps fallbackSteps codes classes maxAttempts delayMs tolerant)
          here e :=
      fun _ _ hs hi => ⟨hi, .inr hs⟩
    refine advances_reportStep _ ?_
    exact advances_retryFrom hc (advanced_rules.into hp) (advanced_rules.into hf) _ _

end Walk

/-! ### The whole run -/

section Run

variable {τ : Type} (setup : Setup) (host : Host τ) (steps : List EntryStep) (t : τ)

theorem Advanced.follows {setup : Setup} {host : Host τ} {here : Path} {t : τ} {e : Stopped}
    {c : PtpCtx τ} (h : Advanced setup host here (.initial setup t) e c) :
    ∃ last, Follows (Watch.moves setup) ⟨none, none, false⟩ c.trace
      ⟨last, Interrupt.failure e, false⟩ := by
  obtain ⟨-, -, added, ht, hw⟩ := h
  rw [ht]
  exact hw none

/-- The events of a run are in order, and a failure is left over at the end
just if the run has failed. -/
theorem run_watched : ∃ last, Follows (Watch.moves setup) ⟨none, none, false⟩
    (runSteps setup host steps t).2.trace
      ⟨last, (runSteps setup host steps t).1.error, false⟩ := by
  have hk : Kept (Advanced setup host topPath) (walkFrom setup host true steps topPath 0 none) :=
    advanced_walkRules.walk (fun _ => Advanced.described) steps (everySteps_trivial steps) _ _ _
  rcases runSteps_cases setup host steps t with ⟨e, h⟩ | ⟨h, he⟩
  · rw [h]
    exact ⟨none, rfl⟩
  · rw [he]
    exact ((hk (.initial setup t)).described h).follows

end Run

/-! ### Reading the trace -/

theorem Covers.cls {setup : Setup} {last : Option Request} {step : EntryStep} {here : Path}
    {e : StepError} (h : Covers setup last step here e) :
    e.cls = .response ∨ e.cls = .decode ∨ e.cls = .deadline ∧ setup.eventDelivery = .bestEffort ∧
      ∃ r, last = some r ∧ r.IsEventWait := by
  obtain ⟨-, ⟨-, hre⟩ | hr⟩ := h
  · exact .inl hre
  · cases step with
    | getProp prop captures tolerant => exact .inl hr.1
    | retry steps fallback codes classes maxAttempts delayMs tolerant =>
      have hs : retrySelects codes classes e = true := hr
      cases hcls : e.cls <;> simp_all [retrySelects]
    | awaitUntil source condition onEach captures timeoutMs intervalMs tolerant =>
      cases source with
      | poll prop => exact hr.elim
      | event code thenPoll =>
        obtain ⟨hd, -, hlo, hl⟩ := hr
        exact .inr (.inr ⟨hd, hlo, hl⟩)
    | _ => exact hr.elim

section Run

variable {τ : Type} (setup : Setup) (host : Host τ) (steps : List EntryStep) (t : τ)

end Run

end Ptpsim.Executor
