/-
# What a retry reports of its attempts

The report that ends a retry says how often the list was started again. The
number goes through one place of the context, which every step inside clears
(`PtpCtx.controlAttempts`): it is lost when steps of a fallback run after it
has been written, and it has not been written yet when the clock of the retry
runs out or when the pause before an attempt fails. Where none of this can
happen (`Countable`), a tally of the attempts since the retry was reported as
started (`Tally.moves`) agrees with every report.
-/
import Ptpsim.Executor.Walks

namespace Ptpsim.Executor

open Ptpsim.Core Config List Function
open Interrupt hiding Exec

/-! ### The tally -/

/-- The attempts of each retry since it was reported as started. -/
abbrev Tally := Path → Option ℕ

def Tally.moves (tally : Tally) (event : Event) (tally' : Tally) : Prop :=
  match event with
  | .report r =>
    if r.outcome = .started then tally' = Function.update tally r.stepPath (some 0)
    else (r.verb = .retry → tally r.stepPath = some (r.attempts + 1)) ∧
      tally' = Function.update tally r.stepPath none
  | .attempt here _ => tally' = Function.update tally here ((tally here).map (· + 1))
  | _ => tally' = tally

/-- The events agree with the tally, and are about places inside `here`. -/
def Tallies (here : Path) (events : List Event) : Prop :=
  ∀ tally, ∃ tally', Follows Tally.moves tally events tally' ∧
    ∀ p, ¬ here <+: p → tally' p = tally p

theorem tallies_nil (here : Path) : Tallies here [] := fun tally => ⟨tally, rfl, fun _ _ => rfl⟩

variable {here : Path} {events : List Event}

theorem Tallies.append {a b : List Event} (ha : Tallies here a) (hb : Tallies here b) :
    Tallies here (a ++ b) := by
  intro tally
  obtain ⟨tally₁, hf, ho⟩ := ha tally
  obtain ⟨tally₂, hf', ho'⟩ := hb tally₁
  exact ⟨tally₂, follows_append.mpr ⟨_, hf, hf'⟩, fun p hp => (ho' p hp).trans (ho p hp)⟩

theorem Tallies.outside {path : Path} (hpa : here <+: path) (h : Tallies path events) :
    Tallies here events := by
  intro tally
  obtain ⟨tally', hf, ho⟩ := h tally
  exact ⟨tally', hf, fun p hp => ho p fun hin => hp (hpa.trans hin)⟩

theorem tallies_of_silent (h : ∀ event ∈ events, ∀ tally, Tally.moves tally event tally) :
    Tallies here events :=
  fun tally => ⟨tally, follows_same fun event hmem => h event hmem tally, fun _ _ => rfl⟩

theorem exchange_silent {event : Event} (h : event.IsExchange here) (tally : Tally) :
    Tally.moves tally event tally := by
  cases event <;> simp_all [Event.IsExchange, Tally.moves]

theorem ne_of_outside {p : Path} (hp : ¬ here <+: p) : p ≠ here := by
  rintro rfl
  exact hp (prefix_refl _)

theorem not_inside_into (here : Path) (branch : Branch) : ¬ here.into branch <+: here := by
  intro h
  have hl := h.length_le
  simp [Path.into] at hl

/-! ### What the walk keeps -/

/-- The run is still followed, and makes its reports. -/
def Live (e : Stopped) : Prop := ∀ panicked, e ≠ some (.halted panicked)

theorem live_none : Live none := by rintro _ ⟨⟩

theorem live_failed (e : StepError) : Live (some (.failed e)) := by rintro _ ⟨⟩

/-- Nothing is dropped, the events agree with the tally, and the place for the
attempts is left clear. -/
structure Counted {τ : Type} (here : Path) (c : PtpCtx τ) (e : Stopped) (c' : PtpCtx τ) : Prop where
  kept : ∀ level clock, e ≠ some (.dropped level clock)
  clear : Live e → c.controlAttempts.getD 0 = 0 → c'.controlAttempts.getD 0 = 0
  traced : ∃ added, c'.trace = c.trace ++ added ∧ Tallies here added

section Walk

variable {τ : Type} {setup : Setup} {host : Host τ} {here : Path}

theorem counted_composes : Composes (Counted here : PtpCtx τ → Stopped → PtpCtx τ → Prop) where
  refl c := ⟨by simp, fun _ h => h, [], by simp, tallies_nil here⟩
  trans := by
    rintro c c₁ c₂ e ⟨-, hc, added, ht, hw⟩ ⟨hk, hc', added', ht', hw'⟩
    exact ⟨hk, fun he h => hc' he (hc live_none h), added ++ added',
      by rw [ht', ht, append_assoc], hw.append hw'⟩

variable {e : Stopped} {c₁ c₂ c : PtpCtx τ} {n : ℕ} {events : List Event}

theorem Counted.silent (h : Counted here c e c₁) (added : List Event)
    (htr : c₂.trace = c₁.trace ++ added) (ha : c₂.controlAttempts = c₁.controlAttempts)
    (hs : ∀ event ∈ added, ∀ tally, Tally.moves tally event tally) : Counted here c e c₂ := by
  obtain ⟨hk, hcl, events, hev, ht⟩ := h
  exact ⟨hk, fun he hc => by rw [ha]; exact hcl he hc, events ++ added,
    by rw [htr, hev, append_assoc], ht.append (tallies_of_silent hs)⟩

theorem Counted.described (h : Counted here c e c₁) (ha : Described c₁ c₂) :
    Counted here c e c₂ := by
  obtain ⟨⟨added, ht⟩, hat, -⟩ := ha
  refine h.silent _ ht hat fun event hmem => ?_
  obtain ⟨e, -, rfl⟩ := mem_map.mp hmem
  exact fun tally => rfl

theorem counted_rules (hh : ¬ host.Drops) : Rules setup host Counted where
  composes here := counted_composes
  inside hp h := by
    obtain ⟨hk, hcl, added, ht, hta⟩ := h
    exact ⟨hk, hcl, added, ht, hta.outside hp⟩
  exchanged h := by
    obtain ⟨added, ht, hex, -⟩ := h.traced
    exact ⟨fun level clock he => hh (h.dropped level clock he),
      fun _ hc => by rw [h.attempts]; exact hc, added, ht,
      tallies_of_silent fun event hmem => exchange_silent (hex event hmem)⟩
  rescoped h hs := h.silent [] (by simp [hs.trace]) hs.attempts (by simp)
  late h := absurd rfl (h.kept 0 _)
  outer h := absurd rfl (h.kept _ _)
  halted := ⟨by simp, fun he => absurd rfl (he false), [], by simp, tallies_nil _⟩

/-! ### Reports -/

/-- The body of a step that has been reported as started, `n` attempts into
its retry. -/
structure BodyCounted (step : EntryStep) (here : Path) (n : ℕ) (c : PtpCtx τ) (e : Stopped)
    (c' : PtpCtx τ) : Prop where
  kept : ∀ level clock, e ≠ some (.dropped level clock)
  clear : stepVerb step ≠ .retry → Live e → c'.controlAttempts.getD 0 = 0
  traced : ∃ added, c'.trace = c.trace ++ added ∧ ∀ tally, tally here = some n →
    ∃ tally', Follows Tally.moves tally added tally' ∧ (∀ p, ¬ here <+: p → tally' p = tally p) ∧
      (stepVerb step = .retry → Live e →
        tally' here = some (c'.controlAttempts.getD 0 + 1))

/-- What the body does from the context on. -/
def Counts (step : EntryStep) (here : Path) (n : ℕ) (body : Exec τ (Option TxMeta)) (c : PtpCtx τ) :
    Prop :=
  BodyCounted step here n c (ending (body c)) (final (body c))

theorem Counted.body {step : EntryStep} {c' : PtpCtx τ} (hs : stepVerb step ≠ .retry)
    (hc : c.controlAttempts.getD 0 = 0) (h : Counted here c e c') :
    BodyCounted step here n c e c' := by
  obtain ⟨added, htr, ht⟩ := h.traced
  refine ⟨h.kept, fun _ he => h.clear he hc, added, htr, fun tally _ => ?_⟩
  obtain ⟨tally', hf, ho⟩ := ht tally
  exact ⟨tally', hf, ho, fun hr => absurd hr hs⟩

/-- A body that is never dropped has no use for its clock. -/
theorem withStepClock_eq (step : EntryStep) {body : Exec τ (Option TxMeta)}
    (h : ∀ level clock, ending (body c) ≠ some (.dropped level clock)) :
    withStepClock step here body c = body c := by
  have hra : race body (fun clock => fail (clockError here .step defaultStepTimeoutMs clock)) c =
      body c := by
    rcases hr : body c with ⟨m, c'⟩ | ⟨e | ⟨level, clock⟩ | _, c'⟩
    · exact race_ok hr
    · exact race_failed hr
    · rw [hr] at h
      exact absurd rfl (h level clock)
    · exact race_halted hr
  cases step <;> first | exact hra | rfl

variable {step : EntryStep} {activity : Option (String × UInt32)}

theorem started_moves (tally : Tally) :
    Tally.moves tally (.report (startedReport setup step here activity))
      (Function.update tally here (some 0)) := by
  simp [Tally.moves, startedReport]

theorem Terminal.moves {attempts : ℕ} {r : StepReport} {tally : Tally}
    (h : Terminal setup step here activity attempts r)
    (hr : stepVerb step = .retry → tally here = some (attempts + 1)) :
    Tally.moves tally (.report r) (Function.update tally here none) := by
  obtain ⟨outcome, error, txMeta, ho, rfl⟩ := h
  simpa [Tally.moves, terminalReport, ho] using hr

theorem counted_end {e₁ : Stopped} {extra : List Event} {r : StepReport}
    (hk : ∀ level clock, e ≠ some (.dropped level clock))
    (hc : stepVerb step ≠ .retry → Live e₁ → c₁.controlAttempts.getD 0 = 0)
    (htr : c₁.trace = c.trace ++ events)
    (ht : ∀ tally, ∃ tally', Follows Tally.moves tally events tally' ∧
      (∀ p, ¬ here <+: p → tally' p = tally p) ∧ (stepVerb step = .retry → Live e₁ →
        tally' here = some (c₁.controlAttempts.getD 0 + 1)))
    (hp : Live e₁) (hr : Terminal setup step here activity (reportedAttempts step c₁) r)
    (he : ∀ event ∈ extra, ∀ tally, Tally.moves tally event tally)
    (hend : c₂.trace = c₁.trace ++ (extra ++ [.report r]))
    (hs : c₂.controlAttempts = (settled step 0 c₁).controlAttempts) : Counted here c e c₂ := by
  refine ⟨hk, fun _ _ => ?_, events ++ (extra ++ [.report r]),
    by rw [hend, htr, append_assoc], fun tally => ?_⟩
  · rw [hs]
    by_cases hre : stepVerb step = .retry
    · simp [settled, hre]
    · simpa [settled, hre] using hc hre hp
  · obtain ⟨tally₁, hf, ho, ha⟩ := ht tally
    have hm : Tally.moves tally₁ (.report r) (Function.update tally₁ here none) := by
      refine hr.moves fun hre => ?_
      rw [ha hre hp, reportedAttempts, if_pos hre]
    refine ⟨Function.update tally₁ here none, follows_append.mpr ⟨_, hf,
      follows_append.mpr ⟨_, follows_same fun event hmem => he event hmem tally₁,
        follows_singleton.mpr hm⟩⟩, fun p hp => ?_⟩
    rw [update_of_ne (ne_of_outside hp), ho p hp]

theorem counts_reportStep {body : Exec τ (Option TxMeta)}
    (hb : ∀ c, c.controlAttempts.getD 0 = 0 → Counts step here 0 body c) :
    Kept (Counted here) (reportStep setup step here body) := by
  intro c
  -- The body starts with the report made and the place for the attempts clear.
  let started : Event := .report (startedReport setup step here c.activityCorrelation)
  let c₀ : PtpCtx τ := { c.record started with controlAttempts := none, deferredTolerance := none }
  obtain ⟨hk, hcl, added, ht, htal⟩ := hb c₀ rfl
  have hc : withStepClock step here body c₀ = body c₀ := withStepClock_eq step hk
  have ht' : (final (body c₀)).trace = c.trace ++ started :: added := by
    rw [ht]
    simp [c₀, PtpCtx.record]
  have hta : ∀ tally : Tally, ∃ tally', Follows Tally.moves tally (started :: added) tally' ∧
      (∀ p, ¬ here <+: p → tally' p = tally p) ∧ (stepVerb step = .retry →
        Live (ending (body c₀)) →
          tally' here = some ((final (body c₀)).controlAttempts.getD 0 + 1)) := by
    intro tally
    obtain ⟨tally', hf, ho, hre⟩ := htal (Function.update tally here (some 0)) (by simp)
    refine ⟨tally', ⟨_, started_moves tally, hf⟩, fun p hp => ?_, hre⟩
    rw [ho p hp, update_of_ne (ne_of_outside hp)]
  refine attempt_bind_cases (P := fun r => Counted here c (ending r) (final r))
    (fun m c₁ hr => ?_) (fun e c₁ hr => ?_) fun e c₁ hr hs => ?_
  all_goals rw [hc] at hr; rw [hr] at hk hcl ht' hta
  · obtain ⟨m', r, hte, hend⟩ := concludeStep_ok setup step here c.activityCorrelation m c₁
    rw [hend]
    exact counted_end (by rintro _ _ ⟨⟩) hcl ht' hta live_none hte (forall_mem_nil _) rfl rfl
  · obtain ⟨r, hte, ⟨-, -, hend⟩ | hend⟩ :=
      concludeStep_error setup step here c.activityCorrelation e c₁
    · rw [hend]
      have he : ∀ event ∈ [Event.resumed step here e], ∀ tally, Tally.moves tally event tally := by
        simp [Tally.moves]
      exact counted_end (by rintro _ _ ⟨⟩) hcl ht' hta (live_failed e) hte he
        (by simp [final, settled, PtpCtx.record]) rfl
    · rw [hend]
      exact counted_end (by rintro _ _ ⟨⟩) hcl ht' hta (live_failed e) hte (forall_mem_nil _) rfl
        rfl
  · rcases e with e | ⟨level, clock⟩ | _
    · exact absurd rfl (hs e)
    · exact absurd rfl (hk level clock)
    · refine ⟨by rintro _ _ ⟨⟩, fun he => absurd rfl (he _), started :: added, ht', fun tally => ?_⟩
      obtain ⟨tally', hf, ho, -⟩ := hta tally
      exact ⟨tally', hf, ho⟩

/-! ### Retries -/

/-- Waiting always works. -/
def Host.Sleeps (host : Host τ) : Prop :=
  ∀ ms t, ∃ next, host.answer (.sleep ms) t = (.reply (.ok ()), next)

/-- The step is no retry that could lose its attempts: it has one attempt, or
no fallback and no pause that could fail after an attempt was made again. -/
def Countable (host : Host τ) : EntryStep → Prop
  | .retry _ fallback _ _ maxAttempts delayMs _ => maxAttempts.toNat ≤ 1 ∨
      fallback = [] ∧ (maxAttempts.toNat ≤ 2 ∨ delayMs = 0 ∨ host.Sleeps)
  | _ => True

theorem pause_ok (h : host.Sleeps) (ms : UInt32) (here : Path) (c : PtpCtx τ) :
    ∃ c₁, pause host ms here c = .ok () c₁ := by
  obtain ⟨next, ha⟩ := h ms c.host
  exact ⟨_, race_ok (bind_ok (call_reply ha))⟩

/-- Events after which the retry is `m` attempts into its list. -/
def Reaches (here : Path) (n : ℕ) (events : List Event) (m : ℕ) : Prop :=
  ∀ tally : Tally, tally here = some n → ∃ tally', Follows Tally.moves tally events tally' ∧
    (∀ p, ¬ here <+: p → tally' p = tally p) ∧ tally' here = some m

theorem Reaches.append {m k : ℕ} {a b : List Event} (ha : Reaches here n a m)
    (hb : Reaches here m b k) : Reaches here n (a ++ b) k := by
  intro tally ht
  obtain ⟨tally₁, hf, ho, hm⟩ := ha tally ht
  obtain ⟨tally₂, hf', ho', hk⟩ := hb tally₁ hm
  exact ⟨tally₂, follows_append.mpr ⟨_, hf, hf'⟩, fun p hp => (ho' p hp).trans (ho p hp), hk⟩

theorem reaches_attempt (number n : ℕ) : Reaches here n [.attempt here number] (n + 1) := by
  intro tally ht
  refine ⟨Function.update tally here (some (n + 1)), ?_, fun p hp => ?_, by simp⟩
  · simp [follows_singleton, Tally.moves, ht]
  · exact update_of_ne (ne_of_outside hp) _ _

theorem reaches_silent (h : ∀ event ∈ events, ∀ tally, Tally.moves tally event tally) :
    Reaches here n events n :=
  fun tally ht => ⟨tally, follows_same fun event hmem => h event hmem tally, fun _ _ => rfl, ht⟩

theorem Tallies.reaches {branch : Branch} (h : Tallies (here.into branch) events) :
    Reaches here n events n := by
  intro tally ht
  obtain ⟨tally', hf, ho⟩ := h tally
  refine ⟨tally', hf, fun p hp => ?_, ?_⟩
  · exact ho p fun hin => hp ((prefix_append here _).trans hin)
  · rw [ho here (not_inside_into here branch), ht]

theorem BodyCounted.after {m : ℕ} (ht : c₁.trace = c.trace ++ events)
    (hr : Reaches here n events m) (h : BodyCounted step here m c₁ e c₂) :
    BodyCounted step here n c e c₂ := by
  obtain ⟨hk, hc, added, ht', hta⟩ := h
  refine ⟨hk, hc, events ++ added, by rw [ht', ht, append_assoc], ?_⟩
  intro tally hn
  obtain ⟨tally₁, hf, ho, hm⟩ := hr tally hn
  obtain ⟨tally₂, hf', ho', ha⟩ := hta tally₁ hm
  exact ⟨tally₂, follows_append.mpr ⟨_, hf, hf'⟩, fun p hp => (ho' p hp).trans (ho p hp), ha⟩

theorem bodyCounted_over (hr : stepVerb step = .retry)
    (hk : ∀ level clock, e ≠ some (.dropped level clock)) (htr : c₂.trace = c₁.trace)
    (ha : Live e → n = c₂.controlAttempts.getD 0 + 1) :
    BodyCounted step here n c₁ e c₂ :=
  ⟨hk, fun h => absurd hr h, [], by simp [htr], fun tally ht =>
    ⟨tally, rfl, fun _ _ => rfl, fun _ he => by rw [ht, ha he]⟩⟩

theorem Counted.retryBody {branch : Branch} (hr : stepVerb step = .retry)
    (hc : c₁.controlAttempts.getD 0 = 0) (h : Counted (here.into branch) c₁ e c₂) :
    BodyCounted step here 1 c₁ e c₂ := by
  obtain ⟨hk, hc', events, htr, ht⟩ := h
  refine BodyCounted.after htr ht.reaches ?_
  exact bodyCounted_over hr hk rfl fun he => by rw [hc' he hc]

section Retry

variable {selects : StepError → Bool} {limit : ℕ} {delayMs : UInt32} {hasFallback : Bool}
  {primary fallback : Exec τ (Option TxMeta)} {number : ℕ} {c : PtpCtx τ}

theorem bodyCounted_retryGivesUp {e : StepError} (hr : stepVerb step = .retry)
    (hn : 0 < number) (hfi : hasFallback = true → number = 1)
    (hf : Kept (Counted (here.into .fallback)) fallback) :
    Counts step here number (retryGivesUp step here selects hasFallback fallback number e) c := by
  have hset : retryGivesUp step here selects hasFallback fallback number e c =
      (if selects e && hasFallback then do
        emit (.resumed step here e)
        fallback
      else throw (.failed e) : Exec τ (Option TxMeta))
        { c with controlAttempts := some (number - 1) } := rfl
  unfold Counts
  rw [hset]
  split
  case isTrue h =>
    -- The steps of the fallback clear the place; there is nothing to lose in it.
    obtain rfl : number = 1 := hfi (by simp_all)
    let c₁ : PtpCtx τ := { c with controlAttempts := some 0 }
    have hre : (c₁.record (.resumed step here e)).trace = c.trace ++ [.resumed step here e] := rfl
    exact BodyCounted.after hre (reaches_silent (by simp [Tally.moves]))
      (Counted.retryBody hr rfl (hf _))
  case isFalse =>
    refine bodyCounted_over hr (by rintro _ _ ⟨⟩) rfl fun _ => ?_
    have hsub : number = number - 1 + 1 := by omega
    exact hsub

/-- The attempts that are left may be made and counted: none is left, or
nothing can get in the way. -/
def RetryFine (host : Host τ) (delayMs : UInt32) (hasFallback : Bool) (left number : ℕ) : Prop :=
  (hasFallback = false ∧
    (left = 0 ∨ (left = 1 ∧ number = 1) ∨ delayMs = 0 ∨ host.Sleeps)) ∨ (left = 0 ∧ number = 1)

theorem bodyCounted_attempt {rest : StepError → Exec τ (Option TxMeta)}
    (hre : stepVerb step = .retry) (hp : Kept (Counted (here.into .steps)) primary)
    (hnu : 0 < number) (hc : c.controlAttempts.getD 0 = 0)
    (hres : ∀ e c₁, c₁.controlAttempts.getD 0 = 0 → Counts step here number (rest e) c₁) :
    Counts step here (number - 1) (retryAttempt here primary rest number) c := by
  obtain ⟨hk, hc', events, ht, hta⟩ := hp (c.record (.attempt here number))
  have hrea : Reaches here (number - 1) ([.attempt here number] ++ events) number := by
    have hn : Reaches here (number - 1) [.attempt here number] (number - 1 + 1) :=
      reaches_attempt number (number - 1)
    rw [Nat.sub_add_cancel hnu] at hn
    exact hn.append hta.reaches
  have ht' : (final (primary (c.record (.attempt here number)))).trace =
      c.trace ++ ([.attempt here number] ++ events) := by
    rw [ht]
    simp [PtpCtx.record]
  have he : (emit (.attempt here number) : Exec τ PUnit) c =
      .ok ⟨⟩ (c.record (.attempt here number)) := rfl
  unfold Counts retryAttempt
  rw [bind_ok he]
  rcases hr : primary (c.record (.attempt here number)) with ⟨m, c₁⟩ | ⟨e | ⟨level, clock⟩ | _, c₁⟩
  all_goals
    rw [hr] at ht' hk hc'
    refine BodyCounted.after ht' hrea ?_
  · rw [bind_ok (attempt_ok hr)]
    refine bodyCounted_over hre (by rintro _ _ ⟨⟩) rfl fun _ => ?_
    exact (Nat.sub_add_cancel hnu).symm
  · rw [bind_ok (attempt_failed hr)]
    exact hres e c₁ (hc' (live_failed e) hc)
  · exact absurd rfl (hk level clock)
  · rw [bind_error (attempt_halted hr)]
    exact bodyCounted_over hre (by rintro _ _ ⟨⟩) rfl fun h => absurd rfl (h _)

theorem RetryFine.next {left : ℕ} (h : RetryFine host delayMs hasFallback (left + 1) number) :
    RetryFine host delayMs hasFallback left (number + 1) := by
  rcases h with ⟨hno, hl | ⟨hone, -⟩ | hd⟩ | ⟨hl, -⟩
  · omega
  · exact .inl ⟨hno, .inl (by omega)⟩
  · exact .inl ⟨hno, .inr (.inr hd)⟩
  · omega

theorem bodyCounted_pause {next : Exec τ (Option TxMeta)} {left : ℕ}
    (hh : ¬ host.Drops) (hr : stepVerb step = .retry) (hd : 0 < delayMs)
    (hc : c.controlAttempts.getD 0 = 0)
    (hf : RetryFine host delayMs hasFallback (left + 1) number)
    (hn : ∀ c₁ : PtpCtx τ, c₁.controlAttempts.getD 0 = 0 → Counts step here number next c₁) :
    Counts step here number (pause host delayMs here >>= fun _ => next) c := by
  unfold Counts
  obtain ⟨answer, c₁, ha, ⟨a, -, hp⟩ | ⟨e, -, hp⟩ | ⟨level, clock, -, hdr, -⟩⟩ :=
    transportDeadline_cases host (.sleep delayMs) (saturatingAdd delayMs defaultOpTimeoutMs) here c
  · have hrun : (pause host delayMs here >>= fun _ => next) c = next c₁ := bind_ok hp
    rw [hrun]
    refine BodyCounted.after ha.trace (reaches_silent (by simp [Tally.moves])) ?_
    exact hn c₁ (by rw [ha.attempts]; exact hc)
  · have hrun : (pause host delayMs here >>= fun _ => next) c =
        .error (.failed e) (c₁.record (.failed e)) := bind_error hp
    have hone : number = 1 := by
      rcases hf with ⟨-, hl | ⟨-, hone⟩ | hz | hs⟩ | ⟨hl, -⟩
      · omega
      · exact hone
      · exact absurd hd (by simp [hz])
      · obtain ⟨c₂, hok⟩ := pause_ok hs delayMs here c
        rw [pause, hp] at hok
        cases hok
      · omega
    have ht : (c₁.record (.failed e)).trace = c.trace ++
      [.request (.sleep delayMs) answer, .failed e] := by
      simp [PtpCtx.record, ha.trace]
    rw [hrun]
    refine BodyCounted.after ht (reaches_silent (by simp [Tally.moves])) ?_
    refine bodyCounted_over hr (by rintro _ _ ⟨⟩) rfl fun _ => ?_
    have hat : (c₁.record (.failed e)).controlAttempts.getD 0 = 0 := by
      simpa [PtpCtx.record, ha.attempts] using hc
    rw [hone, final, hat]
  · exact absurd hdr hh

theorem bodyCounted_retryFrom (hh : ¬ host.Drops) (hr : stepVerb step = .retry)
    (hp : Kept (Counted (here.into .steps)) primary)
    (hfa : Kept (Counted (here.into .fallback)) fallback) :
    ∀ (left number : ℕ) (c : PtpCtx τ), 0 < number → c.controlAttempts.getD 0 = 0 →
      RetryFine host delayMs hasFallback left number → Counts step here (number - 1)
        (retryFrom host step here selects limit delayMs primary hasFallback fallback left number)
        c := by
  have hg : ∀ {number : ℕ} {left : ℕ} (e : StepError) (c : PtpCtx τ), 0 < number →
      RetryFine host delayMs hasFallback left number → Counts step here number
        (retryGivesUp step here selects hasFallback fallback number e) c := by
    intro number left e c hn hf
    refine bodyCounted_retryGivesUp hr hn ?_ hfa
    rcases hf with ⟨hno, -⟩ | ⟨-, hone⟩
    · simp [hno]
    · exact fun _ => hone
  intro left
  induction left with
  | zero =>
    intro number c hn hc hf
    exact bodyCounted_attempt hr hp hn hc fun e c₁ _ => hg e c₁ hn hf
  | succ left ih =>
    intro number c hn hc hf
    refine bodyCounted_attempt hr hp hn hc fun e c₁ hc₁ => ?_
    split
    case isTrue hse =>
      let c₂ : PtpCtx τ := (c₁.record (.resumed step here e)).retryActivity (number + 1) limit e
      obtain ⟨⟨added, ht⟩, hat, -⟩ : Described (c₁.record (.resumed step here e)) c₂ :=
        retryActivity_described (number + 1) limit e _
      have hc₂ : c₂.controlAttempts.getD 0 = 0 := by
        rw [hat]
        exact hc₁
      have ht' : c₂.trace = c₁.trace ++ ([.resumed step here e] ++ added.map .activity) := by
        rw [ht]
        simp [PtpCtx.record]
      have ha : ∀ c₃ : PtpCtx τ, c₃.controlAttempts.getD 0 = 0 → Counts step here number
          (retryFrom host step here selects limit delayMs primary hasFallback fallback left
            (number + 1)) c₃ :=
        fun c₃ hc₃ => ih (number + 1) c₃ (by omega) hc₃ hf.next
      have hs : ∀ event ∈ [Event.resumed step here e] ++ added.map .activity, ∀ tally,
          Tally.moves tally event tally := by
        simp [Tally.moves]
      refine BodyCounted.after ht' (reaches_silent hs) ?_
      by_cases hd : 0 < delayMs
      · simp only [hd, ↓reduceIte]
        exact bodyCounted_pause hh hr hd hc₂ hf ha
      · simp only [hd, ↓reduceIte]
        exact ha c₂ hc₂
    case isFalse => exact hg e c₁ hn hf

end Retry

theorem counted_walkRules (hh : ¬ host.Drops) :
    WalkRules setup host Counted (Countable host) where
  toRules := counted_rules hh
  looped {here c c₁ e event} he h := by
    refine h.silent [event] rfl rfl ?_
    cases event <;> simp_all [Event.IsElement, Tally.moves]
  unbound collection _ := ⟨by rintro _ _ ⟨⟩, fun _ hc => hc, [_], rfl,
    tallies_of_silent (by simp [Tally.moves])⟩
  reported hs h := counts_reportStep fun c hcl => (h c).body hs hcl
  retried {steps fallbackSteps codes classes maxAttempts delayMs tolerant here primary fallback}
      hco hp hf := by
    refine counts_reportStep fun c hcl => ?_
    refine bodyCounted_retryFrom hh rfl hp hf _ 1 c (by omega) hcl ?_
    rcases hco with hone | ⟨rfl, htwo | hd⟩
    · exact .inr ⟨by omega, rfl⟩
    · exact .inl ⟨rfl, by omega⟩
    · exact .inl ⟨rfl, .inr (.inr hd)⟩

end Walk

/-! ### The whole run -/

section Run

variable {τ : Type} (setup : Setup) {host : Host τ} {steps : List EntryStep}

/-- The tally agrees with every report of the run. -/
theorem run_tallied (hh : ¬ host.Drops) (hs : EverySteps (Countable host) steps) (t : τ) :
    Tallies topPath (runSteps setup host steps t).2.trace := by
  have hk : Kept (Counted topPath) (walkFrom setup host true steps topPath 0 none) :=
    (counted_walkRules hh).walk (fun _ => Counted.described) steps hs _ _ _
  rcases runSteps_cases setup host steps t with ⟨e, h⟩ | ⟨h, -⟩
  · rw [h]
    exact tallies_nil topPath
  · obtain ⟨added, htr, ht⟩ := ((hk (.initial setup t)).described h).traced
    rw [htr]
    exact ht

end Run

/-! ### Reading the trace -/

/-- The place that a report is about. -/
def Event.reportPlace : Event → Option Path
  | .report r => some r.stepPath
  | _ => none

def Event.isAttempt (here : Path) : Event → Bool
  | .attempt p _ => p = here
  | _ => false

/-- Between two reports about a place the tally counts its attempts. -/
theorem follows_count : ∀ {events : List Event} {tally tally' : Tally} {n : ℕ},
    Follows Tally.moves tally events tally' → (∀ event ∈ events, event.reportPlace ≠ some here) →
    tally here = some n → tally' here = some (n + events.countP (Event.isAttempt here))
  | [], tally, tally', n, h, _, ht => by
    cases h
    simpa using ht
  | event :: events, tally, tally', n, h, hr, ht => by
    obtain ⟨tally₁, hm, hre⟩ := h
    have hr' : ∀ event ∈ events, event.reportPlace ≠ some here :=
      fun event' hmem => hr event' (mem_cons_of_mem event hmem)
    rw [countP_cons]
    cases event with
    | report r =>
      have hne : here ≠ r.stepPath := by
        rintro rfl
        exact hr (.report r) (by simp) rfl
      have ht₁ : tally₁ here = some n := by
        simp only [Tally.moves] at hm
        split at hm
        · rw [hm, update_of_ne hne, ht]
        · rw [hm.2, update_of_ne hne, ht]
      simpa [Event.isAttempt] using follows_count hre hr' ht₁
    | attempt p number =>
      have hm' : tally₁ = Function.update tally p ((tally p).map (· + 1)) := hm
      by_cases hp : p = here
      · have ht₁ : tally₁ here = some (n + 1) := by
          rw [hm', hp]
          simp [ht]
        rw [follows_count hre hr' ht₁]
        simp [Event.isAttempt, hp]
        omega
      · have ht₁ : tally₁ here = some n := by
          rw [hm', update_of_ne (Ne.symm hp), ht]
        simpa [Event.isAttempt, hp] using follows_count hre hr' ht₁
    | _ =>
      cases hm
      simpa [Event.isAttempt] using follows_count hre hr' ht

section Run

variable {τ : Type} (setup : Setup) (host : Host τ) (steps : List EntryStep) (t : τ)

/-- A retry that has come to an end reports how often its list was started
again: once less than it was started. -/
theorem retry_reports_restarts (hhost : ¬ host.Drops) (hsteps : EverySteps (Countable host) steps)
    (before mid after : List Event) (started ended : StepReport)
    (htrace : (runSteps setup host steps t).2.trace =
      before ++ .report started :: (mid ++ .report ended :: after))
    (hstarted : started.outcome = .started) (hended : ended.outcome ≠ .started)
    (hplace : ended.stepPath = started.stepPath) (hretry : ended.verb = .retry)
    (hmid : ∀ event ∈ mid, event.reportPlace ≠ some started.stepPath) :
    ended.attempts + 1 = mid.countP (Event.isAttempt started.stepPath) := by
  obtain ⟨tally, hf, -⟩ := run_tallied setup hhost hsteps t fun _ => none
  rw [htrace] at hf
  obtain ⟨tally₁, -, tally₂, hs, hr⟩ := follows_append.mp hf
  obtain ⟨tally₃, hm, tally₄, hend, -⟩ := follows_append.mp hr
  have ht₂ : tally₂ started.stepPath = some 0 := by
    simp only [Tally.moves, hstarted, ↓reduceIte] at hs
    simp [hs]
  have hc := follows_count hm hmid ht₂
  simp only [Tally.moves, hended, ↓reduceIte] at hend
  have ha := hend.1 hretry
  rw [hplace, hc] at ha
  simpa using ha.symm

end Run

/-! ### Examples -/

/-- Two attempts at an operation while the camera is busy, and then the
fallback if there is one. -/
def busyRetry (fallback : List EntryStep) : EntryStep :=
  .retry [.sendOp 0x1001 [] [] 1 false] fallback [0x2019] [] 2 0 false

def retryPlace : Path := [.branch .steps, .step 0 .retry]

theorem busyHost_steady (n : ℕ) : ¬ (busyHost n).Drops := by
  rintro (⟨r, t, level, clock, next, h⟩ | ⟨o, t, level, clock, next, h⟩)
  · cases r <;> simp [busyHost] at h
  · simp [busyHost] at h

/-- The first report of a trace, the last one, and what is between them. -/
def bracket : List Event → Option (StepReport × List Event × StepReport)
  | .report started :: rest =>
    match rest.getLast? with
    | some (.report ended) => some (started, rest.dropLast, ended)
    | _ => none
  | _ => none

theorem bracket_eq {mid : List Event} {started ended : StepReport}
    (h : bracket events = some (started, mid, ended)) :
    events = .report started :: (mid ++ [.report ended]) := by
  unfold bracket at h
  split at h
  · rename_i started' rest
    split at h
    · rename_i ended' hl
      cases h
      have hr : rest.dropLast ++ [.report ended] = rest := dropLast_append_getLast? _ hl
      rw [hr]
    · cases h
  · cases h

/-- A run that is one retry, from the report that it has started to the one
that ends it. -/
def isRetryRun (b : StepReport × List Event × StepReport) : Bool :=
  decide (b.1.outcome = .started ∧ b.2.2.outcome ≠ .started ∧ b.2.2.verb = .retry ∧
    b.1.stepPath = retryPlace ∧ b.2.2.stepPath = retryPlace ∧
    ∀ event ∈ b.2.1, event.reportPlace ≠ some retryPlace)

theorem retry_reports_restarts_busy : ∃ started mid ended,
    (runSteps plainSetup (busyHost 1) [busyRetry []] 0).2.trace =
      .report started :: (mid ++ [.report ended]) ∧
    started.stepPath = retryPlace ∧ ended.stepPath = retryPlace ∧
    ended.attempts + 1 = mid.countP (Event.isAttempt retryPlace) := by
  have hc : (bracket (runSteps plainSetup (busyHost 1) [busyRetry []] 0).2.trace).any
      isRetryRun = true := by decide +kernel
  obtain ⟨⟨started, mid, ended⟩, hb, hrun⟩ := (Option.any_eq_true _ _).mp hc
  obtain ⟨hs, he, hv, hp, hp', hmid⟩ := of_decide_eq_true hrun
  have hst : EverySteps (Countable (busyHost 1)) [busyRetry []] :=
    ⟨.inr ⟨rfl, .inl (by decide)⟩, ⟨⟨trivial, trivial, trivial⟩, trivial⟩, trivial⟩
  have ht := bracket_eq hb
  refine ⟨started, mid, ended, ht, hp, hp', ?_⟩
  have hco := retry_reports_restarts plainSetup (busyHost 1) [busyRetry []] 0 (busyHost_steady 1)
    hst [] mid [] started ended ht hs he (hp'.trans hp.symm) hv
    (by rw [hp]; exact hmid)
  rwa [hp] at hco

/-- The fallback completes the retry after two attempts, and the report says
that none was made again. -/
theorem restarts_lost_by_fallback : ∃ started mid ended,
    (runSteps plainSetup (busyHost 2) [busyRetry [.sendOp 0x1002 [] [] 1 false]] 0).1 = .finished ∧
    (runSteps plainSetup (busyHost 2) [busyRetry [.sendOp 0x1002 [] [] 1 false]] 0).2.trace =
      .report started :: (mid ++ [.report ended]) ∧
    started.outcome = .started ∧ ended.outcome = .succeeded ∧ ended.verb = .retry ∧
    started.stepPath = retryPlace ∧ ended.stepPath = retryPlace ∧
    (∀ event ∈ mid, event.reportPlace ≠ some retryPlace) ∧
    mid.countP (Event.isAttempt retryPlace) = 2 ∧ ended.attempts = 0 := by
  have hc : (bracket (runSteps plainSetup (busyHost 2)
      [busyRetry [.sendOp 0x1002 [] [] 1 false]] 0).2.trace).any (fun b => isRetryRun b &&
        decide (b.2.2.outcome = .succeeded ∧ b.2.1.countP (Event.isAttempt retryPlace) = 2 ∧
          b.2.2.attempts = 0)) = true := by decide +kernel
  obtain ⟨⟨started, mid, ended⟩, hb, hrun⟩ := (Option.any_eq_true _ _).mp hc
  obtain ⟨hr, hl⟩ := Bool.and_eq_true_iff.mp hrun
  obtain ⟨hs, -, hv, hp, hp', hmid⟩ := of_decide_eq_true hr
  obtain ⟨hsu, hco, ha⟩ := of_decide_eq_true hl
  exact ⟨started, mid, ended, by decide +kernel, bracket_eq hb, hs, hsu, hv, hp, hp', hmid, hco, ha⟩

end Ptpsim.Executor
