/-
# Elements of a loop that are run once

A loop over a collection ends with the first element whose steps fail. What
was done for the elements before is not to be done again; the loader sees to
it that no loop stands beneath a retry. An await runs its list again as well,
once for every poll, and goes on after a failure in it if a step of the list is
tolerant: a loop that has failed and was tolerated starts again from the first
element (`elements_run_again`, `failed_loop_not_rerun`).

In lists that may be run again a loop that has failed must end the list
(`Spends`); in lists that are run once it is enough that a path leads to one
step only (`SpendsOnce`).
-/
import Ptpsim.Executor.Collections

namespace Ptpsim.Executor

open Ptpsim.Core Config List
open Interrupt hiding Exec

/-! ### Steps outside of loops -/

mutual
/-- Some step outside of loops is tolerant and is or contains a loop over a
collection. -/
def toleratesForEach : List EntryStep → Bool
  | [] => false
  | step :: rest => stepToleratesForEach step || toleratesForEach rest

def stepToleratesForEach : EntryStep → Bool
  | .forEach _ _ _ tolerant => tolerant
  | .awaitUntil _ _ onEach _ _ _ tolerant =>
    tolerant && containsForEach onEach || toleratesForEach onEach
  | .ifThen _ _ thenSteps _ => toleratesForEach thenSteps
  | .ifElse _ _ thenSteps elseSteps _ => toleratesForEach thenSteps || toleratesForEach elseSteps
  | _ => false
end

mutual
/-- Some await outside of loops goes on after a loop in its list has failed. -/
def awaitsToleratedForEach : List EntryStep → Bool
  | [] => false
  | step :: rest => stepAwaitsToleratedForEach step || awaitsToleratedForEach rest

def stepAwaitsToleratedForEach : EntryStep → Bool
  | .awaitUntil _ _ onEach _ _ _ _ => toleratesForEach onEach
  | .ifThen _ _ thenSteps _ => awaitsToleratedForEach thenSteps
  | .ifElse _ _ thenSteps elseSteps _ =>
    awaitsToleratedForEach thenSteps || awaitsToleratedForEach elseSteps
  | _ => false
end

variable (p : Path)

/-- The path does not lead through a loop. -/
def Path.OutsideLoops : Prop :=
  ∀ index, .branch (.forEach index) ∉ p ∧ .branch (.chunk index) ∉ p

/-! ### Loops that have failed -/

/-- Whether the loop has failed. After that it runs no element. -/
def Replay.moves (spent : Bool) (event : Event) (spent' : Bool) : Prop :=
  match event with
  | .element q _ _ => (q = p → spent = false) ∧ spent' = spent
  | .elementFailed q _ => spent' = (spent || decide (q = p))
  | _ => spent' = spent

section Runs

variable {τ : Type} {setup : Setup} {host : Host τ} {p here : Path}

/-- Nothing is said about elements of the loop, unless `Q` holds here. -/
def Quiet (p : Path) (Q : Path → Prop) (here : Path) (c : PtpCtx τ) (_ : Stopped) (c' : PtpCtx τ) :
    Prop :=
  ∃ added, c'.trace = c.trace ++ added ∧ ∀ event ∈ added, event.IsElement p → Q here

/-- A loop that has failed has ended the list with it. -/
def Spends (p : Path) (_ : Path) (c : PtpCtx τ) (e : Stopped) (c' : PtpCtx τ) : Prop :=
  ∃ added spent, c'.trace = c.trace ++ added ∧ Follows (Replay.moves p) false added spent ∧
    (spent = true → ∃ err, e = some (.failed err))

/-- A loop is not run again. -/
def SpendsOnce (p : Path) (c c' : PtpCtx τ) : Prop :=
  ∃ added spent, c'.trace = c.trace ++ added ∧ Follows (Replay.moves p) false added spent

variable {event : Event}

theorem replay_same (h : ¬ event.IsElement p) (spent : Bool) :
    Replay.moves p spent event spent := by
  cases event <;> simp_all [Replay.moves, Event.IsElement]

theorem exchange_not_element (h : event.IsExchange here) : ¬ event.IsElement p := by
  cases event <;> simp_all [Event.IsExchange, Event.IsElement]

/-! ### Parts without the loop -/

section Quiet

variable {Q : Path → Prop}

theorem Quiet.append {c c₁ c₂ : PtpCtx τ} {e e' : Stopped} (h : Quiet p Q here c e c₁)
    (added : List Event) (ht : c₂.trace = c₁.trace ++ added)
    (hadded : ∀ event ∈ added, event.IsElement p → Q here) : Quiet p Q here c e' c₂ := by
  obtain ⟨events, he, hq⟩ := h
  refine ⟨events ++ added, by rw [ht, he, append_assoc], fun event hmem => ?_⟩
  exact (mem_append.mp hmem).elim (hq event) (hadded event)

theorem quiet_refl (c : PtpCtx τ) (e : Stopped) : Quiet p Q here c e c := ⟨[], by simp, by simp⟩

theorem quiet_rules (hQ : ∀ {here path : Path}, here <+: path → Q path → Q here) :
    Rules setup host (Quiet p Q) where
  composes _ :=
    { refl := fun c => quiet_refl c none
      trans := by
        rintro c c₁ c₂ e h ⟨added, ht, hadded⟩
        exact h.append added ht hadded }
  inside hp h := by
    obtain ⟨added, ht, hadded⟩ := h
    exact ⟨added, ht, fun event hmem he => hQ hp (hadded event hmem he)⟩
  exchanged h := by
    obtain ⟨added, ht, hex, -⟩ := h.traced
    exact ⟨added, ht, fun event hmem he =>
      absurd he (exchange_not_element (hex event hmem))⟩
  rescoped h hs := h.append [] (by simp [hs.trace]) (by simp)
  late h := h
  outer h := h
  halted := quiet_refl _ _

theorem quiet_record {event : Event} (h : ¬ event.IsElement p) (c : PtpCtx τ) (e : Stopped) :
    Quiet p Q here c e (c.record event) :=
  (quiet_refl c none).append [event] rfl fun event' hmem he => by
    rw [mem_singleton.mp hmem] at he
    exact absurd he h

theorem Quiet.described {c c₁ c₂ : PtpCtx τ} {e : Stopped} (h : Quiet p Q here c e c₁)
    (ha : Described c₁ c₂) : Quiet p Q here c e c₂ := by
  obtain ⟨⟨added, ht⟩, -, -⟩ := ha
  refine h.append _ ht fun event hmem he => ?_
  obtain ⟨_, -, rfl⟩ := mem_map.mp hmem
  exact absurd he id

theorem quiet_flatRules (hQ : ∀ {here path : Path}, here <+: path → Q path → Q here) :
    FlatRules setup host (Quiet p Q) where
  toRules := quiet_rules hQ
  regardless h := h
  reset ht _ _ := (quiet_refl _ none).append [] (by simp [ht]) (by simp)
  announced number limit err c := (quiet_refl c none).described (retryActivity_described _ _ _ c)
  attempted _ c := quiet_record id c none
  resumed _ _ c := quiet_record id c none
  started _ c := quiet_record id c none
  ended _ h := h.append [_] rfl (by simp [Event.IsElement])

/-- Nothing is said about elements of the loop. -/
abbrev Silent (p : Path) : Path → PtpCtx τ → Stopped → PtpCtx τ → Prop := Quiet p fun _ => False

theorem silent_flatRules : FlatRules setup host (Silent p) := quiet_flatRules fun _ h => h

theorem quiet_walkRules : WalkRules setup host (Quiet p (· <+: p)) fun _ => True := by
  have hf : FlatRules setup host (Quiet p (· <+: p)) := quiet_flatRules fun hi hp => hi.trans hp
  refine hf.walkRules (fun {here c c₁ e event} hev h => ?_) fun {here c} _ _ => ?_
  · refine h.append [event] rfl fun event' hmem he => ?_
    cases event <;> simp_all [Event.IsElement]
  · exact quiet_record id c _

theorem Quiet.silent {c c' : PtpCtx τ} {e : Stopped} (h : Quiet p (· <+: p) here c e c')
    (hoff : ¬ here <+: p) : Silent p here c e c' := by
  obtain ⟨added, ht, hadded⟩ := h
  exact ⟨added, ht, fun event hmem he => hoff (hadded event hmem he)⟩

theorem silent_off (hoff : ¬ here <+: p) (step : EntryStep) :
    Kept (Silent p here) (runStep setup host step here) :=
  (quiet_walkRules.step step trivial (everyInside_trivial step) here).mono
    fun _ _ _ h => h.silent hoff

theorem silent_off_walk (hoff : ¬ here <+: p) (steps : List EntryStep) (index : ℕ)
    (last : Option TxMeta) :
    Kept (Silent p here) (walkFrom setup host false steps here index last) :=
  (quiet_walkRules.walk (by simp) steps (everySteps_trivial steps) here index last).mono
    fun _ _ _ h => h.silent hoff

end Quiet

theorem not_into_forEach (hp : p.OutsideLoops) (index : ℕ) :
    ¬ here.into (.forEach index) <+: p :=
  fun h => (hp index).1 (h.subset (by simp [Path.into]))

theorem not_into_chunk (hp : p.OutsideLoops) (index : ℕ) : ¬ here.into (.chunk index) <+: p :=
  fun h => (hp index).2 (h.subset (by simp [Path.into]))

theorem silent_chunk (hp : p.OutsideLoops) (total : String) (size : ChunkSize)
    (offsetBind lengthBind : String) (body : List EntryStep) (tolerant : Bool) :
    Kept (Silent p here)
      (runStep setup host (.chunk total size offsetBind lengthBind body tolerant) here) := by
  have hf : FlatRules setup host (Silent p) := silent_flatRules
  have hb : ∀ index, Kept (Silent p here)
      (walkFrom setup host false body (here.into (.chunk index)) 0 none) := fun index =>
    hf.into (silent_off_walk (not_into_chunk hp index) body 0 none)
  exact hf.reportStep _ (hf.chunkStep hb)

mutual
theorem silent_walk (hp : p.OutsideLoops) (h : FlatRules setup host (Silent p)) :
    ∀ (steps : List EntryStep), containsForEach steps = false →
      ∀ (path : Path) (index : ℕ) (last : Option TxMeta),
        Kept (Silent p path) (walkFrom setup host false steps path index last)
  | [], _, _, _, last => h.pure last
  | step :: rest, hno, path, index, last => by
    obtain ⟨hst, hr⟩ := Bool.or_eq_false_iff.mp hno
    have hrun := (silent_step hp h step hst (path.step index step)).mono fun _ _ _ hs =>
      h.inside (prefix_append path _) hs
    refine h.attempt_bind hrun fun result => ?_
    cases result with
    | ok txMeta => exact silent_walk hp h rest hr path (index + 1) txMeta
    | error e => exact Kept.throw fun c => quiet_refl c _

theorem silent_step (hp : p.OutsideLoops) (h : FlatRules setup host (Silent p)) :
    ∀ (step : EntryStep), stepContainsForEach step = false →
      ∀ here : Path, Kept (Silent p here) (runStep setup host step here)
  | .setProp .., _, _ | .setPropRuntime .., _, _ | .getProp .., _, _ | .readEcho .., _, _
  | .sendOp .., _, _ | .openChannel .., _, _ | .reopenSession .., _, _ | .closeSession .., _, _ =>
    h.reportStep _ (h.leaf (exchanges_plain rfl))
  | .awaitUntil _ _ onEach _ _ _ _, hno, _ =>
    h.reportStep _ (h.awaitStep (h.into (silent_walk hp h onEach hno _ 0 none)))
  | .retry steps fallback _ _ _ _ _, hno, _ =>
    h.reportStep _ (h.retryFrom
      (h.into (silent_walk hp h steps (Bool.or_eq_false_iff.mp hno).1 _ 0 none))
      (h.into (silent_walk hp h fallback (Bool.or_eq_false_iff.mp hno).2 _ 0 none)) _ _)
  | .chunk total size offsetBind lengthBind body tolerant, _, _ =>
    silent_chunk hp total size offsetBind lengthBind body tolerant
  | .ifThen _ _ thenSteps _, hno, _ =>
    h.reportStep _ (h.ifStep (h.into (silent_walk hp h thenSteps hno _ 0 none)) (h.pure none))
  | .ifElse _ _ thenSteps elseSteps _, hno, _ =>
    h.reportStep _ (h.ifStep
      (h.into (silent_walk hp h thenSteps (Bool.or_eq_false_iff.mp hno).1 _ 0 none))
      (h.into (silent_walk hp h elseSteps (Bool.or_eq_false_iff.mp hno).2 _ 0 none)))
end

/-- The steps in which no loop can be that the path leads to: the others have
no lists, no loops in their lists, or lists that the path does not lead into. -/
def mayLoop : EntryStep → Bool
  | .awaitUntil .. | .forEach .. | .ifThen .. | .ifElse .. => true
  | _ => false

theorem silent_of_definite (hp : p.OutsideLoops) {A B : Finset String} {step : EntryStep}
    (hd : DefiniteStep step A B) (hm : mayLoop step = false) :
    Kept (Silent p here) (runStep setup host step here) := by
  cases step with
  | retry =>
    refine silent_step hp silent_flatRules _ ?_ here
    exact Bool.or_eq_false_iff.mpr hd.2.2.2
  | chunk => exact silent_chunk hp _ _ _ _ _ _
  | awaitUntil | forEach | ifThen | ifElse => cases hm
  | _ => exact silent_step hp silent_flatRules _ rfl here

/-! ### Lists that may be run again -/

theorem follows_silent {added : List Event} (h : ∀ event ∈ added, event.IsElement p → False)
    (spent : Bool) : Follows (Replay.moves p) spent added spent :=
  follows_same fun event hmem => replay_same (h event hmem) spent

variable {e : Stopped} {c : PtpCtx τ} {path : Path} {slot : String} {c₁ c₂ c' : PtpCtx τ}

theorem Spends.append (h : Spends p here c e c₁) (added : List Event)
    (ht : c₂.trace = c₁.trace ++ added) (hadded : ∀ event ∈ added, event.IsElement p → False) :
    Spends p here c e c₂ := by
  obtain ⟨events, spent, he, hf, hs⟩ := h
  exact ⟨events ++ added, spent, by rw [ht, he, append_assoc],
    follows_append.mpr ⟨spent, hf, follows_silent hadded spent⟩, hs⟩

theorem spends_refl (c : PtpCtx τ) (e : Stopped) : Spends p here c e c :=
  ⟨[], false, by simp, rfl, by simp⟩

theorem spends_of_silent (h : Silent p path c e c') : Spends p here c e c' := by
  obtain ⟨added, ht, hadded⟩ := h
  exact (spends_refl c e).append added ht hadded

theorem spends_rules : Rules setup host (Spends p) where
  composes _ :=
    { refl := fun c => spends_refl c none
      trans := by
        rintro c c₁ c₂ e ⟨events, spent, he, hf, hs⟩ ⟨events', spent', he', hf', hs'⟩
        obtain rfl : spent = false := Bool.eq_false_iff.mpr fun h => by simpa using hs h
        exact ⟨events ++ events', spent', by rw [he', he, append_assoc],
          follows_append.mpr ⟨false, hf, hf'⟩, hs'⟩ }
  inside _ h := h
  exchanged h := by
    obtain ⟨added, ht, hex, -⟩ := h.traced
    exact (spends_refl _ _).append added ht fun event hmem =>
      exchange_not_element (hex event hmem)
  rescoped h hsc := h.append [] (by simp [hsc.trace]) (by simp)
  late h := by simpa [Spends] using h
  outer h := by simpa [Spends] using h
  halted := spends_refl _ _

theorem spends_emit (h : Replay.moves p false event false) :
    Kept (Spends p here) (emit event : Exec τ PUnit) :=
  Kept.modify fun _ => ⟨[event], false, rfl, follows_singleton.mpr h, by simp⟩

/-- The loop itself. It has failed just if it ends with a failure. -/
theorem spends_forEachFrom (h : Rules setup host (Spends p)) {all : List UInt64}
    {body : ℕ → Exec τ (Option TxMeta)} (hb : ∀ index, Kept (Spends p here) (body index)) :
    ∀ (values : List UInt64) (index : ℕ) (last : Option TxMeta),
      Kept (Spends p here) (forEachFrom here slot all body values index last)
  | [], _, last => h.pure last
  | value :: rest, index, last => by
    refine h.get_bind fun c₀ => ?_
    refine h.bind (h.modify fun _ => ⟨rfl, rfl, rfl, rfl⟩) fun _ => ?_
    refine h.bind (spends_emit ⟨fun _ => rfl, rfl⟩) fun _ => ?_
    refine Kept.attempt_bind (h.composes here) (hb index) (fun txMeta => ?_)
      fun e c c₁ hf => ?_
    · refine h.bind (h.modify fun _ => ⟨rfl, rfl, rfl, rfl⟩) fun _ => ?_
      exact h.bind (spends_emit rfl) fun _ => spends_forEachFrom h hb rest (index + 1) txMeta
    · obtain ⟨events, spent, he, hfo, -⟩ := hf
      have ht : ((c₁.restore slot (c₀.bindings slot)).record (.elementFailed here index)).trace =
          c.trace ++ (events ++ [.elementFailed here index]) := by
        simp [PtpCtx.record, PtpCtx.restore, he]
      exact ⟨_, spent || decide (here = p), ht,
        follows_append.mpr ⟨spent, hfo, follows_singleton.mpr rfl⟩, fun _ => ⟨e, rfl⟩⟩

theorem spends_forEachStep (hp : p.OutsideLoops) (h : Rules setup host (Spends p))
    (collection : String) (body : List EntryStep) :
    Kept (Spends p here) (forEachStep here collection slot fun index =>
      walkFrom setup host false body (here.into (.forEach index)) 0 none) := by
  have hb : ∀ index, Kept (Spends p here)
      (walkFrom setup host false body (here.into (.forEach index)) 0 none) := fun index =>
    (silent_off_walk (not_into_forEach hp index) body 0 none).mono fun _ _ _ => spends_of_silent
  refine h.get_bind fun c => ?_
  cases c.collections collection with
  | none =>
    refine h.bind (spends_emit rfl) fun _ => ?_
    exact Kept.throw fun c => spends_refl c _
  | some values =>
    exact Kept.ite (fun _ => h.leaf (exchanges_fail (at_other rfl))) fun _ =>
      spends_forEachFrom h hb values 0 none

theorem withStepClock_around (p here : Path) (step : EntryStep) (body : Exec τ (Option TxMeta))
    (c : PtpCtx τ) :
    Silent p here (final (body c)) none (final (withStepClock step here body c)) ∧
      ∀ err, ending (body c) = some (.failed err) → withStepClock step here body c = body c := by
  have hra : Silent p here (final (body c)) none (final (race body (fun clock =>
        fail (clockError here .step defaultStepTimeoutMs clock)) c)) ∧
      ∀ err, ending (body c) = some (.failed err) → race body (fun clock =>
        fail (clockError here .step defaultStepTimeoutMs clock)) c = body c := by
    rcases hr : body c with ⟨m, c₁⟩ | ⟨err | ⟨_ | level, clock⟩ | _, c₁⟩
    · rw [race_ok hr]
      exact ⟨quiet_refl _ _, fun _ _ => rfl⟩
    · rw [race_failed hr]
      exact ⟨quiet_refl _ _, fun _ _ => rfl⟩
    · rw [race_late hr]
      exact ⟨quiet_record id c₁ none, by rintro _ ⟨⟩⟩
    · rw [race_outer hr]
      exact ⟨quiet_refl _ _, by rintro _ ⟨⟩⟩
    · rw [race_halted hr]
      exact ⟨quiet_refl _ _, by rintro _ ⟨⟩⟩
  cases step <;> first | exact hra | exact ⟨quiet_refl _ _, fun _ _ => rfl⟩

/-- What there is of a step besides its body says nothing about elements, and
a failure of the body is one of the step unless it is tolerated. -/
theorem reportStep_around (setup : Setup) (p here : Path) (step : EntryStep)
    (body : Exec τ (Option TxMeta)) (c : PtpCtx τ) :
    ∃ c₀ : PtpCtx τ, Silent p here c none c₀ ∧
      Silent p here (final (body c₀)) none (final (reportStep setup step here body c)) ∧
      (stepTolerant step = false → ∀ err, ending (body c₀) = some (.failed err) →
        ending (reportStep setup step here body c) = some (.failed err)) := by
  let c₀ : PtpCtx τ :=
    { c.record (.report (startedReport setup step here c.activityCorrelation)) with
      controlAttempts := none, deferredTolerance := none }
  refine ⟨c₀, ⟨[.report _], rfl, by simp [Event.IsElement]⟩, ?_⟩
  obtain ⟨hc, hf⟩ := withStepClock_around p here step body c₀
  refine attempt_bind_cases (P := fun r => Silent p here (final (body c₀)) none (final r) ∧
    (stepTolerant step = false → ∀ err, ending (body c₀) = some (.failed err) →
      ending r = some (.failed err))) (fun m c₁ hr => ?_) (fun err c₁ hr => ?_)
        fun e c₁ hr hne => ?_
  all_goals rw [hr] at hc
  · obtain ⟨m', r, -, hend⟩ := concludeStep_ok setup step here c.activityCorrelation m c₁
    rw [hend]
    refine ⟨hc.append [.report r] rfl (by simp [Event.IsElement]), fun _ err herr => ?_⟩
    rw [← hf err herr, hr] at herr
    cases herr
  · obtain ⟨r, -, ⟨ht, -, hend⟩ | hend⟩ :=
      concludeStep_error setup step here c.activityCorrelation err c₁
    · rw [hend]
      refine ⟨hc.append [.resumed step here err, .report r]
        (by simp [final, settled, PtpCtx.record]) (by simp [Event.IsElement]), fun hnot => ?_⟩
      simp [hnot] at ht
    · rw [hend]
      refine ⟨hc.append [.report r] rfl (by simp [Event.IsElement]), fun _ err' herr => ?_⟩
      rw [← hf err' herr, hr] at herr
      exact herr
  · refine ⟨hc, fun _ err herr => ?_⟩
    rw [← hf err herr, hr] at herr
    exact absurd (Option.some.inj herr) (hne err)

theorem spends_reportStep {step : EntryStep} {body : Exec τ (Option TxMeta)}
    (hst : stepTolerant step = false) (hbo : Kept (Spends p here) body) :
    Kept (Spends p here) (reportStep setup step here body) := by
  intro c
  obtain ⟨c₀, ⟨before, hb, hq⟩, ⟨after, ha, hq'⟩, hend⟩ :=
    reportStep_around setup p here step body c
  obtain ⟨events, spent, he, hf, hs⟩ := hbo c₀
  refine ⟨before ++ events ++ after, spent, by rw [ha, he, hb]; simp, ?_, fun h => ?_⟩
  · rw [append_assoc]
    exact follows_append.mpr ⟨false, follows_silent hq false,
      follows_append.mpr ⟨spent, hf, follows_silent hq' spent⟩⟩
  · obtain ⟨err, herr⟩ := hs h
    exact ⟨err, hend hst err herr⟩

mutual
theorem spends_walk (hp : p.OutsideLoops) (h : Rules setup host (Spends p)) :
    ∀ (steps : List EntryStep) (A B : Finset String), Definite steps A B →
      toleratesForEach steps = false → ∀ (path : Path) (index : ℕ) (last : Option TxMeta),
        Kept (Spends p path) (walkFrom setup host false steps path index last)
  | [], _, _, _, _, _, _, last => h.pure last
  | step :: rest, A, C, ⟨B, hst, hr⟩, hno, path, index, last => by
    obtain ⟨hno, hno'⟩ := Bool.or_eq_false_iff.mp hno
    have hrun := (spends_step hp h step A B hst hno (path.step index step)).mono
      fun _ _ _ hs => h.inside (prefix_append path _) hs
    refine Kept.attempt_bind (h.composes path) hrun (fun txMeta => ?_) fun e c c₁ hf => hf
    exact spends_walk hp h rest B C hr hno' path (index + 1) txMeta

theorem spends_step (hp : p.OutsideLoops) (h : Rules setup host (Spends p)) :
    ∀ (step : EntryStep) (A B : Finset String), DefiniteStep step A B →
      stepToleratesForEach step = false →
        ∀ here : Path, Kept (Spends p here) (runStep setup host step here)
  | .setProp .., _, _, hd, _, _ | .setPropRuntime .., _, _, hd, _, _ | .getProp .., _, _, hd, _, _
  | .readEcho .., _, _, hd, _, _ | .sendOp .., _, _, hd, _, _ | .openChannel .., _, _, hd, _, _
  | .reopenSession .., _, _, hd, _, _ | .closeSession .., _, _, hd, _, _ | .chunk .., _, _, hd, _, _
  | .retry .., _, _, hd, _, _ =>
    (silent_of_definite hp hd rfl).mono fun _ _ _ => spends_of_silent
  | .awaitUntil source condition onEach captures timeoutMs intervalMs tolerant, A, _,
      ⟨⟨C, ho⟩, _⟩, hno, here => by
    obtain ⟨hfo, hno⟩ := Bool.or_eq_false_iff.mp hno
    rcases Bool.and_eq_false_iff.mp hfo with hto | hl
    · exact spends_reportStep hto
        (h.awaitStep (h.into (spends_walk hp h onEach A C ho hno _ 0 none)))
    · have hn : stepContainsForEach
          (.awaitUntil source condition onEach captures timeoutMs intervalMs tolerant) = false := hl
      exact (silent_step hp silent_flatRules _ hn here).mono fun _ _ _ => spends_of_silent
  | .forEach collection _ body _, _, _, _, hno, _ =>
    spends_reportStep hno (spends_forEachStep hp h collection body)
  | .ifThen _ _ thenSteps _, A, _, ⟨⟨C, ht, _⟩, _⟩, hno, here =>
    spends_reportStep rfl (h.ifStep
      (h.into (spends_walk hp h thenSteps A C ht hno _ 0 none)) (h.pure none))
  | .ifElse _ _ thenSteps elseSteps _, A, _, ⟨⟨C, ht, _⟩, D, he, _⟩, hno, here =>
    spends_reportStep rfl (h.ifStep
      (h.into (spends_walk hp h thenSteps A C ht (Bool.or_eq_false_iff.mp hno).1 _ 0 none))
      (h.into (spends_walk hp h elseSteps A D he (Bool.or_eq_false_iff.mp hno).2 _ 0 none)))
end

/-! ### Lists that are run once -/

theorem spendsOnce_refl (c : PtpCtx τ) : SpendsOnce p c c := ⟨[], false, by simp, rfl⟩

theorem SpendsOnce.after (hb : Silent p path c e c₁) (h : SpendsOnce p c₁ c₂) :
    SpendsOnce p c c₂ := by
  obtain ⟨before, ht, hq⟩ := hb
  obtain ⟨events, spent, he, hf⟩ := h
  exact ⟨before ++ events, spent, by rw [he, ht, append_assoc],
    follows_append.mpr ⟨false, follows_silent hq false, hf⟩⟩

theorem SpendsOnce.before (h : SpendsOnce p c c₁) (ha : Silent p path c₁ e c₂) :
    SpendsOnce p c c₂ := by
  obtain ⟨events, spent, he, hf⟩ := h
  obtain ⟨after, ht, hq⟩ := ha
  exact ⟨events ++ after, spent, by rw [ht, he, append_assoc],
    follows_append.mpr ⟨spent, hf, follows_silent hq spent⟩⟩

theorem Spends.once (h : Spends p here c e c') : SpendsOnce p c c' := by
  obtain ⟨events, spent, he, hf, -⟩ := h
  exact ⟨events, spent, he, hf⟩

theorem Quiet.once (h : Silent p path c e c') : SpendsOnce p c c' :=
  (spends_of_silent h : Spends p path c e c').once

/-- The computation does not run the loop again after it has failed. -/
abbrev RunsOnce {α : Type} (p : Path) (m : Exec τ α) : Prop :=
  Kept (fun c _ c' => SpendsOnce p c c') m

theorem once_reportStep {step : EntryStep} {body : Exec τ (Option TxMeta)} (hbo : RunsOnce p body) :
    RunsOnce p (reportStep setup step here body) := by
  intro c
  obtain ⟨c₀, hb, ha, -⟩ := reportStep_around setup p here step body c
  exact ((hbo c₀).after hb).before ha

variable {α : Type}

theorem once_bind {β : Type} {m : Exec τ α} {f : α → Exec τ β} (hm : Kept (Silent p here) m)
    (hf : ∀ a, RunsOnce p (f a)) : RunsOnce p (m >>= f) := by
  intro c
  have hs := hm c
  rcases hr : m c with ⟨a, c₁⟩ | ⟨e, c₁⟩
  · rw [hr] at hs
    rw [bind_ok hr]
    exact (hf a c₁).after hs
  · rw [hr] at hs
    rw [bind_error hr]
    exact hs.once

theorem once_attempt_bind {β : Type} {m : Exec τ α} {f : Except StepError α → Exec τ β}
    (hm : RunsOnce p m) (hok : ∀ a, Kept (Silent p here) (f (.ok a)))
    (he : ∀ e, Kept (Silent p here) (f (.error e))) : RunsOnce p (attempt m >>= f) := by
  intro c
  have hs := hm c
  refine attempt_bind_cases (P := fun r => SpendsOnce p c (final r)) (fun a c₁ hr => ?_)
    (fun e c₁ hr => ?_) fun e c₁ hr _ => ?_
  all_goals rw [hr] at hs
  · exact hs.before (hok a c₁)
  · exact hs.before (he e c₁)
  · exact hs

theorem silent_attempt {m : Exec τ α} (h : Kept (Silent p here) m) :
    Kept (Silent p here) (attempt m) := by
  intro c
  have hs := h c
  unfold attempt
  rcases hr : m c with ⟨a, c₁⟩ | ⟨e | ⟨level, clock⟩ | _, c₁⟩
  all_goals
    rw [hr] at hs
    exact hs

theorem silent_onTop (topLevel : Bool) {f : PtpCtx τ → PtpCtx τ} (hf : ∀ c, Described c (f c)) :
    Kept (Silent p here) (modify (onTop topLevel f) : Exec τ PUnit) := by
  refine Kept.modify fun c => ?_
  cases topLevel with
  | true => exact (quiet_refl c none).described (hf c)
  | false => exact quiet_refl c none

theorem index_of_step_prefix {i j : ℕ} {s s' : EntryStep} (h : path.step i s <+: p)
    (h' : path.step j s' <+: p) : i = j := by
  have hpa := (prefix_of_prefix_length_le h h' (by simp [Path.step])).eq_of_length
    (by simp [Path.step])
  have hp := append_cancel_left hpa
  simp only [List.cons.injEq, PathPart.step.injEq] at hp
  exact hp.1.1

theorem silent_later (topLevel : Bool) : ∀ (steps : List EntryStep) (index : ℕ)
    (last : Option TxMeta), (∀ j s, index ≤ j → ¬ path.step j s <+: p) →
      Kept (Silent p path) (walkFrom setup host topLevel steps path index last)
  | [], _, last, _ => fun c => quiet_refl c none
  | step :: rest, index, last, hoff => by
    have hf : FlatRules setup host (Silent p) := silent_flatRules
    rw [walkFrom_cons]
    refine hf.bind (silent_onTop topLevel (enterActivity_described index)) fun _ => ?_
    refine hf.attempt_bind (silent_off (hoff index step le_rfl) step) fun result => ?_
    cases result with
    | ok txMeta =>
      refine hf.bind (silent_onTop topLevel (leaveActivity_described index)) fun _ => ?_
      exact silent_later topLevel rest (index + 1) txMeta fun j s hj => hoff j s (by omega)
    | error e =>
      refine hf.bind (silent_onTop topLevel (finishActivity_described _)) fun _ => ?_
      exact Kept.throw fun c => quiet_refl c _

theorem once_ifStep (setup : Setup) (host : Host τ) {equals : UInt64}
    {thenSteps elseSteps : Exec τ (Option TxMeta)} (ht : RunsOnce p thenSteps)
    (he : RunsOnce p elseSteps) : RunsOnce p (ifStep here slot equals thenSteps elseSteps) := by
  have hf : FlatRules setup host (Silent p) := silent_flatRules
  have hs : Kept (Silent p here) (slotU64 slot (.other here (.ifSlot slot)) : Exec τ UInt64) :=
    hf.leaf (exchanges_slotU64 slot (at_other rfl))
  exact once_bind hs fun _ => Kept.ite (fun _ => ht) fun _ => he

mutual
theorem once_walk (hp : p.OutsideLoops) (hf : FlatRules setup host (Silent p)) (topLevel : Bool) :
    ∀ (steps : List EntryStep) (A B : Finset String), Definite steps A B →
      awaitsToleratedForEach steps = false → ∀ (path : Path) (index : ℕ) (last : Option TxMeta),
        RunsOnce p (walkFrom setup host topLevel steps path index last)
  | [], _, _, _, _, _, _, last => fun c => spendsOnce_refl c
  | step :: rest, A, C, ⟨B, hs, hr⟩, hno, path, index, last => by
    obtain ⟨hno, hno'⟩ := Bool.or_eq_false_iff.mp hno
    rw [walkFrom_cons]
    have he : Kept (Silent p path)
        (modify (onTop topLevel (enterActivity setup index)) : Exec τ PUnit) :=
      silent_onTop topLevel (enterActivity_described index)
    have hl : Kept (Silent p path)
        (modify (onTop topLevel (leaveActivity index)) : Exec τ PUnit) :=
      silent_onTop topLevel (leaveActivity_described index)
    have hfa : ∀ e, Kept (Silent p path) (do
        modify (onTop topLevel (PtpCtx.finishActivityFailure e))
        throw (.failed e) : Exec τ (Option TxMeta)) := fun e =>
      hf.bind (silent_onTop topLevel (finishActivity_described _)) fun _ =>
        Kept.throw fun c => quiet_refl c _
    refine once_bind he fun _ => ?_
    by_cases hon : path.step index step <+: p
    · -- The path leads to this step, and so to none of the later ones.
      have hoff : ∀ j s, index + 1 ≤ j → ¬ path.step j s <+: p := fun j s hj hla => by
        have := index_of_step_prefix hon hla
        omega
      refine once_attempt_bind (once_step hp hf step A B hs hno (path.step index step))
        (fun txMeta => ?_) hfa
      exact hf.bind hl fun _ => silent_later topLevel rest (index + 1) txMeta hoff
    · refine once_bind (silent_attempt (silent_off hon step)) fun result => ?_
      cases result with
      | ok txMeta =>
        exact once_bind hl fun _ =>
          once_walk hp hf topLevel rest B C hr hno' path (index + 1) txMeta
      | error e => exact (hfa e).mono fun _ _ _ h => h.once

theorem once_step (hp : p.OutsideLoops) (hf : FlatRules setup host (Silent p)) :
    ∀ (step : EntryStep) (A B : Finset String), DefiniteStep step A B →
      stepAwaitsToleratedForEach step = false →
        ∀ here : Path, RunsOnce p (runStep setup host step here)
  | .setProp .., _, _, hd, _, _ | .setPropRuntime .., _, _, hd, _, _ | .getProp .., _, _, hd, _, _
  | .readEcho .., _, _, hd, _, _ | .sendOp .., _, _, hd, _, _ | .openChannel .., _, _, hd, _, _
  | .reopenSession .., _, _, hd, _, _ | .closeSession .., _, _, hd, _, _ | .chunk .., _, _, hd, _, _
  | .retry .., _, _, hd, _, _ =>
    (silent_of_definite hp hd rfl).mono fun _ _ _ h => h.once
  | .awaitUntil source condition onEach captures timeoutMs intervalMs tolerant, A, _,
      ⟨⟨C, ho⟩, _⟩, hno, here => by
    have hr : Rules setup host (Spends p) := spends_rules
    have hl := spends_walk hp hr onEach A C ho hno (here.into .onEach) 0 none
    exact once_reportStep ((hr.awaitStep (hr.into hl)).mono fun _ _ _ h => h.once)
  | .forEach collection _ body _, _, _, _, _, _ =>
    once_reportStep ((spends_forEachStep hp spends_rules collection body).mono
      fun _ _ _ h => h.once)
  | .ifThen _ _ thenSteps _, A, _, ⟨⟨C, ht, _⟩, _⟩, hno, here =>
    once_reportStep (once_ifStep setup host
      (once_walk hp hf false thenSteps A C ht hno _ 0 none) spendsOnce_refl)
  | .ifElse _ _ thenSteps elseSteps _, A, _, ⟨⟨C, ht, _⟩, D, he, _⟩, hno, here =>
    once_reportStep (once_ifStep setup host
      (once_walk hp hf false thenSteps A C ht (Bool.or_eq_false_iff.mp hno).1 _ 0 none)
      (once_walk hp hf false elseSteps A D he (Bool.or_eq_false_iff.mp hno).2 _ 0 none))
end

/-! ### Whole runs -/

theorem run_once (hp : p.OutsideLoops) (setup : Setup) (host : Host τ) {plan : List EntryStep}
    {B : Finset String} (hd : Definite plan ∅ B)
    (ha : awaitsToleratedForEach plan = false) (t : τ) :
    SpendsOnce p (.initial setup t) (runSteps setup host plan t).2 := by
  have hw : SpendsOnce p (.initial setup t)
      (final (walkFrom setup host true plan topPath 0 none (.initial setup t))) :=
    once_walk hp silent_flatRules true plan ∅ B hd ha topPath 0 none (.initial setup t)
  rcases runSteps_cases setup host plan t with ⟨e, h⟩ | ⟨h, -⟩
  · rw [h]
    exact spendsOnce_refl _
  · have hs : Silent p topPath _ none _ := (quiet_refl _ none).described h
    exact hw.before hs

end Runs

theorem replay_spent {p : Path} : ∀ {events : List Event} {spent : Bool},
    Follows (Replay.moves p) true events spent → ∀ values index, .element p values index ∉ events
  | [], _, _, _, _ => by simp
  | event :: events, spent, h, values, index => by
    obtain ⟨middle, hm, hr⟩ := h
    obtain rfl : middle = true := by
      cases event <;> simp_all [Replay.moves]
    rw [mem_cons, not_or]
    refine ⟨?_, replay_spent hr values index⟩
    rintro rfl
    simpa using hm.1 rfl

/-- In the trace, no element of a loop (outside of other loops) that was done
before a later one failed, in the same execution of the loop, is run again. -/
def CompletedElementsStay (trace : List Event) : Prop :=
  ∀ (p : Path) (i j : ℕ) (before between after : List Event), p.OutsideLoops →
    trace = before ++ .elementDone p i :: between ++ .elementFailed p j :: after →
    (∀ values, .element p values 0 ∉ between) → ∀ values, .element p values i ∉ after

/-- In a run of a list that the loader accepts, an element that was done is not
run again after a later one has failed, if no await goes on after a loop in its
list has failed. -/
theorem failed_loop_not_rerun {τ : Type} (setup : Setup) (host : Host τ)
    (steps : List Config.Step) (path : String) (ownership : Option SessionOwnership)
    (plan : List EntryStep) (haccept : requireValidPtpSteps steps path ownership = .ok ())
    (hmap : mapSteps steps = some plan) (hawaits : awaitsToleratedForEach plan = false) (t : τ) :
    CompletedElementsStay (runSteps setup host plan t).2.trace := by
  intro p i j before between after hp hs _ values
  obtain ⟨B, hst, -⟩ := Fallible.bind_eq_ok_iff.mp haccept
  have hd := definite_of_accepted steps path 0 ∅ B plan hst hmap
  obtain ⟨events, spent, ht, hf⟩ := run_once hp setup host hd hawaits t
  have he : events = (before ++ .elementDone p i :: between) ++ .elementFailed p j :: after := by
    rw [← hs, ht]
    rfl
  rw [he] at hf
  obtain ⟨middle, -, next, hm, ha⟩ := follows_append.mp hf
  obtain rfl : next = true := by simpa [Replay.moves] using hm
  exact replay_spent ha values i

/-! ### A loop that is run again -/

/-- The events before the first one that is looked for, and those after it. -/
def cutAt (wanted : Event → Bool) : List Event → Option (List Event × Event × List Event)
  | [] => none
  | event :: rest =>
    if wanted event then some ([], event, rest)
    else (cutAt wanted rest).map fun cut => (event :: cut.1, cut.2)

theorem cutAt_eq {wanted : Event → Bool} : ∀ {events a b : List Event} {event : Event},
    cutAt wanted events = some (a, event, b) → events = a ++ event :: b ∧ wanted event = true
  | [], _, _, _, h => by cases h
  | first :: rest, a, b, event, h => by
    unfold cutAt at h
    split at h
    case isTrue hw =>
      cases h
      exact ⟨rfl, hw⟩
    case isFalse =>
      obtain ⟨⟨a', event', b'⟩, hcut, hmap⟩ := Option.map_eq_some_iff.mp h
      cases hmap
      obtain ⟨hr, hw⟩ := cutAt_eq hcut
      exact ⟨by rw [hr]; rfl, hw⟩

def Event.isElementAt (i : ℕ) : Event → Bool
  | .element q _ k => decide (q = p ∧ k = i)
  | _ => false

def Event.isDoneAt (i : ℕ) : Event → Bool
  | .elementDone q k => decide (q = p ∧ k = i)
  | _ => false

def Event.isFailedAt (i : ℕ) : Event → Bool
  | .elementFailed q k => decide (q = p ∧ k = i)
  | _ => false

/-- The first element is done, the second one fails, and the first one is run
again. -/
def runsFirstAgain (trace : List Event) : Bool :=
  (cutAt (Event.isDoneAt p 0) trace).any fun cut =>
    (cutAt (Event.isFailedAt p 1) cut.2.2).any fun cut' =>
      !cut'.1.any (Event.isElementAt p 0) && cut'.2.2.any (Event.isElementAt p 0)

theorem not_completedElementsStay {p : Path} {trace : List Event} (hp : p.OutsideLoops)
    (h : runsFirstAgain p trace = true) : ¬ CompletedElementsStay trace := by
  intro hs
  obtain ⟨⟨before, done, rest⟩, hcut, h⟩ := (Option.any_eq_true _ _).mp h
  obtain ⟨⟨between, failed, after⟩, hcut', h⟩ := (Option.any_eq_true _ _).mp h
  obtain ⟨hb, ha⟩ := Bool.and_eq_true_iff.mp h
  obtain ⟨ht, hd⟩ := cutAt_eq hcut
  obtain ⟨hr, hf⟩ := cutAt_eq hcut'
  dsimp only at hr ha hb
  obtain ⟨event, hmem, he⟩ := any_eq_true.mp ha
  cases done <;> simp only [Event.isDoneAt, Bool.false_eq_true] at hd
  cases failed <;> simp only [Event.isFailedAt, Bool.false_eq_true] at hf
  cases event <;> simp only [Event.isElementAt, Bool.false_eq_true] at he
  obtain ⟨rfl, rfl⟩ := of_decide_eq_true hd
  obtain ⟨rfl, rfl⟩ := of_decide_eq_true hf
  obtain ⟨rfl, rfl⟩ := of_decide_eq_true he
  refine hs _ 0 1 before between after hp ?_ (fun values hmem' => ?_) _ hmem
  · rw [ht, hr, append_assoc]
    rfl
  · rw [Bool.not_eq_true', any_eq_false] at hb
    exact hb _ hmem' (by simp [Event.isElementAt])

/-- Objects are listed, and looked at in every round of an await; a look that
fails is tolerated, or not. -/
def pollingSteps (tolerant : Bool) : List Config.Step :=
  [{ sendOp := some "0x1007", captures := [⟨"handles", .ptpU32Array, none⟩] },
    { awaitUntil := some
        { source := .poll "0xd212", «until» := .leaf { prop := "0xd212", eq := some 1 }
          onEach := [{
            loop := some (.forEach "handles" "handle"
              [{ sendOp := some "0x1008", params := [.runtime "handle" 0 none] }])
            tolerant := tolerant }] } }]

def pollingPlan (tolerant : Bool) : List EntryStep :=
  [.sendOp 0x1007 [] [⟨"handles", .ptpU32Array, none⟩] 1 false,
    .awaitUntil (.poll 0xd212) (.leaf { prop := "0xd212", eq := some 1 })
      [.forEach "handles" "handle" [.sendOp 0x1008 [.runtime "handle" 0 none] [] 1 false] tolerant]
      [] 0 0 false]

def pollingSetup : Setup :=
  { plainSetup with
    manifest := { camera := ⟨"Maker", "Model", "1.00", []⟩
                  properties := [("0xd212", { ptype := some "u16" })] } }

/-- Two objects, of which the second one is busy when it is asked for first. -/
def listingHost : Host ℕ where
  answer
    | .execute op _ _ _, t =>
      (.reply (.ok
        (if op = 0x1007 then ⟨Resp.ok, [], some [2, 0, 0, 0, 1, 0, 0, 0, 2, 0, 0, 0]⟩
        else if op = 0x1008 then ⟨if t = 3 then 0x2019 else Resp.ok, [], none⟩
        else ⟨Resp.ok, [], some [if t < 7 then 0 else 1, 0]⟩)), t + 1)
    | request, t => (busyHost 0).answer request t
  write := (busyHost 0).write

/-- The place of the loop. -/
def pollingLoop : Path :=
  [.branch .steps, .step 1 .awaitUntil, .branch .onEach, .step 0 .loop]

/-- The loop fails with the second object, is tolerated, and looks at the first
one again in the next round. -/
theorem elements_run_again :
    requireValidPtpSteps (pollingSteps true) "entry" none = .ok () ∧
      mapSteps (pollingSteps true) = some (pollingPlan true) ∧
      ¬ CompletedElementsStay (runSteps pollingSetup listingHost (pollingPlan true) 0).2.trace := by
  refine ⟨by rfl, by rfl, not_completedElementsStay (p := pollingLoop) ?_ ?_⟩
  · intro index
    simp [pollingLoop]
  · decide +kernel

theorem failed_loop_not_rerun_polling :
    requireValidPtpSteps (pollingSteps false) "entry" none = .ok () ∧
      mapSteps (pollingSteps false) = some (pollingPlan false) ∧
      awaitsToleratedForEach (pollingPlan false) = false ∧
      CompletedElementsStay (runSteps pollingSetup listingHost (pollingPlan false) 0).2.trace := by
  have ha : requireValidPtpSteps (pollingSteps false) "entry" none = .ok () := by rfl
  have hmap : mapSteps (pollingSteps false) = some (pollingPlan false) := by rfl
  exact ⟨ha, hmap, rfl, failed_loop_not_rerun pollingSetup listingHost (pollingSteps false)
    "entry" none (pollingPlan false) ha hmap rfl 0⟩

end Ptpsim.Executor
