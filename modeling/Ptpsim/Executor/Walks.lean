/-
# What a walk keeps

Most of what holds of whole runs is a relation between the context before a
step, the way the step ends and the context after it, and is kept by lists of
steps as soon as it is kept by single ones. This module says what such a
relation has to allow (`Rules`, `WalkRules`), and goes through loops,
conditions, awaits and the walk itself once for all of them. Reports and
retries differ from one relation to the next and are left to it, but for
relations that do not look at how a step ends (`FlatRules`).
-/
import Ptpsim.Executor.Exchanges

namespace Ptpsim.Executor

open Ptpsim.Core Config
open Interrupt hiding Exec

/-! ### Steps at any depth -/

mutual
/-- Every step of the list satisfies the predicate, and every one inside. -/
def EverySteps (P : EntryStep → Prop) : List EntryStep → Prop
  | [] => True
  | step :: rest => P step ∧ EveryInside P step ∧ EverySteps P rest

def EveryInside (P : EntryStep → Prop) : EntryStep → Prop
  | .awaitUntil _ _ onEach _ _ _ _ => EverySteps P onEach
  | .retry steps fallback _ _ _ _ _ => EverySteps P steps ∧ EverySteps P fallback
  | .forEach _ _ body _ | .chunk _ _ _ _ body _ => EverySteps P body
  | .ifThen _ _ thenSteps _ => EverySteps P thenSteps
  | .ifElse _ _ thenSteps elseSteps _ => EverySteps P thenSteps ∧ EverySteps P elseSteps
  | _ => True
end

mutual
theorem everySteps_trivial : ∀ steps : List EntryStep, EverySteps (fun _ => True) steps
  | [] => trivial
  | step :: rest => ⟨trivial, everyInside_trivial step, everySteps_trivial rest⟩

theorem everyInside_trivial : ∀ step : EntryStep, EveryInside (fun _ => True) step
  | .awaitUntil _ _ onEach _ _ _ _ => everySteps_trivial onEach
  | .retry steps fallback _ _ _ _ _ => ⟨everySteps_trivial steps, everySteps_trivial fallback⟩
  | .forEach _ _ body _ => everySteps_trivial body
  | .chunk _ _ _ _ body _ => everySteps_trivial body
  | .ifThen _ _ thenSteps _ => everySteps_trivial thenSteps
  | .ifElse _ _ thenSteps elseSteps _ =>
    ⟨everySteps_trivial thenSteps, everySteps_trivial elseSteps⟩
  | .setProp .. | .setPropRuntime .. | .getProp .. | .readEcho .. | .sendOp .. | .openChannel ..
  | .reopenSession .. | .closeSession .. => trivial
end

/-- The step has no steps inside. -/
def EntryStep.isPlain : EntryStep → Bool
  | .awaitUntil .. | .retry .. | .forEach .. | .chunk .. | .ifThen .. | .ifElse .. => false
  | _ => true

theorem exchanges_plain {τ : Type} {setup : Setup} {host : Host τ} {here : Path} {step : EntryStep}
    (h : step.isPlain = true) : Exchanges setup host here (runStepOnce setup host step here) := by
  cases step with
  | setProp prop value tolerant => exact exchanges_setProperty prop value
  | setPropRuntime prop slot ifMissing tolerant =>
    exact exchanges_setPropertyRuntime prop slot ifMissing
  | getProp prop captures tolerant => exact exchanges_getProperty prop captures tolerant
  | readEcho prop captures tolerant => exact exchanges_echoProperty prop captures
  | sendOp op params captures count tolerant =>
    exact (exchanges_resolveParams params).bind fun _ =>
      exchanges_sendOperation _ op _ captures _ none
  | openChannel role tolerant => exact exchanges_openChannel role
  | reopenSession tolerant => exact exchanges_reopenSession _
  | closeSession transportClose tolerant => exact exchanges_closeSession _ transportClose
  | _ => cases h

/-! ### Rules -/

/-- The contexts differ in the activity only, and in what is said about it. -/
structure Described {τ : Type} (c c' : PtpCtx τ) : Prop where
  trace : ∃ added : List ActivityEvent, c'.trace = c.trace ++ added.map .activity
  attempts : c'.controlAttempts = c.controlAttempts
  collections : c'.collections = c.collections

/-- What a loop says about its elements. -/
def Event.IsElement (here : Path) : Event → Prop
  | .element p _ _ | .elementDone p _ | .elementFailed p _ => p = here
  | _ => False

section Rules

variable {τ : Type} {setup : Setup} {host : Host τ}
  {R : Path → PtpCtx τ → Stopped → PtpCtx τ → Prop}

structure Rules (setup : Setup) (host : Host τ)
    (R : Path → PtpCtx τ → Stopped → PtpCtx τ → Prop) : Prop where
  composes : ∀ here, Composes (R here)
  inside : ∀ {here path : Path} {c c' : PtpCtx τ} {e : Stopped}, here <+: path → R path c e c' →
    R here c e c'
  exchanged : ∀ {here : Path} {c c' : PtpCtx τ} {e : Stopped}, Exchanged setup host here c e c' →
    R here c e c'
  rescoped : ∀ {here : Path} {c c₁ c₂ : PtpCtx τ} {e : Stopped}, R here c e c₁ → Scoped c₁ c₂ →
    R here c e c₂
  late : ∀ {here : Path} {c c' : PtpCtx τ} {clock : Except TransportError Unit},
    R here c (some (.dropped 0 clock)) c' → R here c none c'
  outer : ∀ {here : Path} {c c' : PtpCtx τ} {level : ℕ} {clock : Except TransportError Unit},
    R here c (some (.dropped (level + 1) clock)) c' → R here c (some (.dropped level clock)) c'
  halted : ∀ {here : Path} {c : PtpCtx τ}, R here c (some (.halted false)) c

namespace Rules

variable (h : Rules setup host R) {here : Path}

include h

variable {α : Type} {c : Exec τ α} {slot : String}

theorem into {branch : Branch} (hc : Kept (R (here.into branch)) c) :
    Kept (R here) c :=
  hc.mono fun _ _ _ hs => h.inside (List.prefix_append here _) hs

theorem leaf (hc : Exchanges setup host here c) : Kept (R here) c :=
  hc.mono fun _ _ _ hs => h.exchanged hs

theorem pure (a : α) : Kept (R here) (Pure.pure a : Exec τ α) := Kept.pure (h.composes here) a

theorem bind {β : Type} {f : α → Exec τ β} (hc : Kept (R here) c) (hf : ∀ a, Kept (R here) (f a)) :
    Kept (R here) (c >>= f) :=
  Kept.bind (h.composes here) hc hf

theorem get_bind {f : PtpCtx τ → Exec τ α} (hf : ∀ c, Kept (R here) (f c)) :
    Kept (R here) (get >>= f) :=
  h.bind (Kept.get (h.composes here)) hf

theorem modify {f : PtpCtx τ → PtpCtx τ} (hf : ∀ c, Scoped c (f c)) :
    Kept (R here) (modify f : Exec τ PUnit) :=
  Kept.modify fun c => h.rescoped ((h.composes here).refl c) (hf c)

theorem race {late : Except TransportError Unit → Exec τ α} (hc : Kept (R here) c)
    (hl : ∀ clock, Kept (R here) (late clock)) :
    Kept (R here) (race c late) :=
  hc.race (fun clock _ s' hs => (h.composes here).trans (h.late hs) (hl clock s'))
    fun _ _ _ _ hs => h.outer hs

theorem withStepClock (step : EntryStep) {body : Exec τ (Option TxMeta)} (hb : Kept (R here) body) :
    Kept (R here) (withStepClock step here body) := by
  have hr : Kept (R here) (Interrupt.race body fun clock =>
      fail (clockError here .step defaultStepTimeoutMs clock)) :=
    h.race hb fun clock => h.leaf (exchanges_fail (at_clockError .step defaultStepTimeoutMs clock))
  cases step <;> first | exact hr | exact hb

/-! ### Loops, conditions and awaits -/

variable {body : ℕ → Exec τ (Option TxMeta)}

theorem forEachFrom {all : List UInt64}
    (hl : ∀ {c c₁ : PtpCtx τ} {e : Stopped} {event : Event}, event.IsElement here →
      R here c e c₁ → R here c e (c₁.record event)) (hb : ∀ index, Kept (R here) (body index)) :
    ∀ (values : List UInt64) (index : ℕ)
      (last : Option TxMeta), Kept (R here) (forEachFrom here slot all body values index last) := by
  have he : ∀ event : Event, event.IsElement here → Kept (R here) (emit event : Exec τ PUnit) :=
    fun event hev => Kept.modify fun c => hl hev ((h.composes here).refl c)
  intro values
  induction values with
  | nil => exact fun index last => h.pure last
  | cons value values ih =>
    intro index last
    unfold Executor.forEachFrom
    refine h.get_bind fun c₀ => ?_
    refine h.bind (h.modify fun _ => ⟨rfl, rfl, rfl, rfl⟩) fun _ => ?_
    refine h.bind (he _ rfl) fun _ => ?_
    refine Kept.attempt_bind (h.composes here) (hb index) (fun txMeta => ?_)
      fun e c c₁ hf => ?_
    · refine h.bind (h.modify fun _ => ⟨rfl, rfl, rfl, rfl⟩) fun _ => ?_
      exact h.bind (he _ rfl) fun _ => ih (index + 1) txMeta
    · have hr : R here c (some (.failed e)) (c₁.restore slot (c₀.bindings slot)) :=
        h.rescoped hf ⟨rfl, rfl, rfl, rfl⟩
      exact hl rfl hr

theorem forEachStep {collection : String}
    (hu : ∀ c : PtpCtx τ, c.collections collection = none →
      R here c (some (.failed (.other here (.collectionUnbound collection))))
        (c.record (.failed (.other here (.collectionUnbound collection)))))
    (hl : ∀ {c c₁ : PtpCtx τ} {e : Stopped} {event : Event}, event.IsElement here →
      R here c e c₁ → R here c e (c₁.record event)) (hb : ∀ index, Kept (R here) (body index)) :
    Kept (R here) (forEachStep here collection slot body) := by
  intro c
  unfold Executor.forEachStep
  rw [bind_ok (rfl : (get : Exec τ (PtpCtx τ)) c = .ok c c)]
  cases hc : c.collections collection with
  | none => exact hu c hc
  | some values =>
    have hr : Kept (R here) (if maxForeachIters < values.length then
        fail (.other here .collectionTooLong)
      else Executor.forEachFrom here slot values body values 0 none) :=
      Kept.ite (fun _ => h.leaf (exchanges_fail (at_other rfl))) fun _ =>
        h.forEachFrom hl hb values 0 none
    exact hr c

theorem chunkFrom {total window : UInt64} {offsetBind lengthBind : String}
    (hb : ∀ index, Kept (R here) (body index)) :
    ∀ (left : ℕ) (offset : UInt64) (index : ℕ) (last : Option TxMeta), Kept (R here)
      (chunkFrom here total window offsetBind lengthBind body left offset index last) := by
  intro left
  induction left with
  | zero =>
    intro offset index last
    unfold Executor.chunkFrom
    exact Kept.ite (fun _ => h.leaf (exchanges_fail (at_other rfl))) fun _ => h.pure last
  | succ left ih =>
    intro offset index last
    unfold Executor.chunkFrom
    refine Kept.ite (fun _ => ?_) fun _ => h.pure last
    refine h.get_bind fun c₀ => ?_
    refine h.bind (h.modify fun _ => ⟨rfl, rfl, rfl, rfl⟩) fun _ => ?_
    refine h.get_bind fun c₁ => ?_
    refine h.bind (h.modify fun _ => ⟨rfl, rfl, rfl, rfl⟩) fun _ => ?_
    refine Kept.attempt_bind (h.composes here) (hb index) (fun txMeta => ?_)
      fun e c c₂ hf => ?_
    · exact h.bind (h.modify fun _ => ⟨rfl, rfl, rfl, rfl⟩) fun _ => ih _ _ txMeta
    · exact h.rescoped hf ⟨rfl, rfl, rfl, rfl⟩

theorem chunkStep {total : String} {size : ChunkSize} {offsetBind lengthBind : String}
    (hb : ∀ index, Kept (R here) (body index)) :
    Kept (R here) (chunkStep here total size offsetBind lengthBind body) := by
  refine h.bind (h.leaf (exchanges_slotU64 total (at_other rfl))) fun total => ?_
  refine h.bind (h.leaf (exchanges_chunkWindow size)) fun window => ?_
  refine Kept.ite (fun _ => h.leaf (exchanges_fail (at_other rfl))) fun _ => ?_
  exact h.chunkFrom hb _ _ _ _

theorem ifStep {equals : UInt64} {thenSteps elseSteps : Exec τ (Option TxMeta)}
    (ht : Kept (R here) thenSteps) (he : Kept (R here) elseSteps) :
    Kept (R here) (ifStep here slot equals thenSteps elseSteps) :=
  h.bind (h.leaf (exchanges_slotU64 slot (at_other rfl))) fun _ =>
    Kept.ite (fun _ => ht) fun _ => he

theorem awaitRounds {polled : Option UInt16} {condition : Predicate} {captures : List CaptureInfo}
    {intervalMs : UInt32} {onEach : Exec τ (Option TxMeta)} (ho : Kept (R here) onEach) :
    ∀ n, Kept (R here)
      (awaitRounds setup host here polled condition captures intervalMs onEach n) := by
  intro n
  induction n with
  | zero => exact Kept.throw fun c => h.halted
  | succ n ih =>
    unfold Executor.awaitRounds
    refine h.bind (h.leaf (exchanges_awaitPoll polled)) fun last => ?_
    refine h.get_bind fun c => ?_
    refine Kept.ite (fun _ => h.leaf (exchanges_awaitDone captures last)) fun _ => ?_
    refine Kept.ite (fun _ => h.leaf (exchanges_fail (at_other rfl))) fun _ => ?_
    refine h.bind ho fun _ => ?_
    exact h.bind (h.leaf (exchanges_pause _)) fun _ => ih

theorem awaitStep {source : FfiAwaitSource} {condition : Predicate} {steps : List EntryStep}
    {captures : List CaptureInfo} {timeoutMs intervalMs : UInt32} {tolerant : Bool}
    {onEach : Exec τ (Option TxMeta)} (ho : Kept (R here) onEach) :
    Kept (R here) (awaitStep setup host
      (.awaitUntil source condition steps captures timeoutMs intervalMs tolerant) here source
      condition captures timeoutMs intervalMs onEach) := by
  refine h.race ?_ fun clock => h.leaf (exchanges_fail (at_clockError .await _ clock))
  exact h.bind (h.leaf (exchanges_awaitFirst rfl)) fun _ => h.awaitRounds ho _

end Rules

/-! ### The walk -/

/-- What a relation has to say about single steps to be kept by a walk of
steps that all satisfy `P`. -/
structure WalkRules (setup : Setup) (host : Host τ)
    (R : Path → PtpCtx τ → Stopped → PtpCtx τ → Prop) (P : EntryStep → Prop) : Prop
    extends Rules setup host R where
  looped : ∀ {here : Path} {c c₁ : PtpCtx τ} {e : Stopped} {event : Event}, event.IsElement here →
    R here c e c₁ → R here c e (c₁.record event)
  /-- A loop over a collection that is not bound. -/
  unbound : ∀ {here : Path} {c : PtpCtx τ} (collection : String), c.collections collection = none →
    R here c (some (.failed (.other here (.collectionUnbound collection))))
      (c.record (.failed (.other here (.collectionUnbound collection))))
  /-- A step that is no retry, around its body. -/
  reported : ∀ {step : EntryStep} {here : Path} {body : Exec τ (Option TxMeta)},
    stepVerb step ≠ .retry → Kept (R here) body → Kept (R here) (reportStep setup step here body)
  /-- A retry, around its two lists. -/
  retried : ∀ {steps fallbackSteps : List EntryStep} {codes : List UInt16}
    {classes : List RetryFailureClass} {maxAttempts delayMs : UInt32} {tolerant : Bool}
    {here : Path}
    {primary fallback : Exec τ (Option TxMeta)},
    P (.retry steps fallbackSteps codes classes maxAttempts delayMs tolerant) →
    Kept (R (here.into .steps)) primary → Kept (R (here.into .fallback)) fallback →
    Kept (R here) (reportStep setup
      (.retry steps fallbackSteps codes classes maxAttempts delayMs tolerant) here
      (retrySteps host (.retry steps fallbackSteps codes classes maxAttempts delayMs tolerant) here
        codes classes maxAttempts delayMs primary (!fallbackSteps.isEmpty) fallback))

/-- On the top level the activity changes between the steps. -/
def Describes (R : Path → PtpCtx τ → Stopped → PtpCtx τ → Prop) : Prop :=
  ∀ {here : Path} {c c₁ c₂ : PtpCtx τ} {e : Stopped}, R here c e c₁ → Described c₁ c₂ →
    R here c e c₂

theorem finishActivity_described (terminal : ActiveActivity → ActivityEvent) (c : PtpCtx τ) :
    Described c (c.finishActivity terminal) := by
  unfold PtpCtx.finishActivity
  cases c.activeActivity with
  | none => exact ⟨⟨[], by simp⟩, rfl, rfl⟩
  | some a => exact ⟨⟨[terminal a], rfl⟩, rfl, rfl⟩

theorem retryActivity_described (number limit : ℕ) (e : StepError) (c : PtpCtx τ) :
    Described c (c.retryActivity number limit e) := by
  unfold PtpCtx.retryActivity
  cases c.activeActivity with
  | none => exact ⟨⟨[], by simp⟩, rfl, rfl⟩
  | some a => exact ⟨⟨[_], rfl⟩, rfl, rfl⟩

theorem enterActivity_described (index : ℕ) (c : PtpCtx τ) :
    Described c (enterActivity setup index c) := by
  unfold enterActivity
  cases activityForStart setup index with
  | none => exact ⟨⟨[], by simp⟩, rfl, rfl⟩
  | some d =>
    obtain ⟨⟨added, ht⟩, ha, hc⟩ := finishActivity_described
      (fun a => .succeeded a.descriptor.id a.descriptor.version a.summary) c
    refine ⟨⟨added ++ [.started d.id d.version], ?_⟩, ha, hc⟩
    have hs : (c.startActivity d).trace = (c.finishActivity fun a =>
        .succeeded a.descriptor.id a.descriptor.version a.summary).trace ++
          [.activity (.started d.id d.version)] := rfl
    rw [hs, ht, List.map_append, List.append_assoc]
    rfl

theorem leaveActivity_described (index : ℕ) (c : PtpCtx τ) :
    Described c (leaveActivity index c) := by
  unfold leaveActivity
  split
  · exact finishActivity_described _ c
  · exact ⟨⟨[], by simp⟩, rfl, rfl⟩

/-- The failure that a run ended with. -/
def RunEnd.error : RunEnd → Option StepError
  | failed e => some e
  | _ => none

variable (setup host) in
/-- A run that is not refused ends as its walk does, up to the activity. -/
theorem runSteps_cases (steps : List EntryStep) (t : τ) :
    (∃ e, runSteps setup host steps t = (.refused e, .initial setup t)) ∨
    Described (final (walkFrom setup host true steps topPath 0 none (.initial setup t)))
        (runSteps setup host steps t).2 ∧
      (runSteps setup host steps t).1.error =
        failure (ending (walkFrom setup host true steps topPath 0 none (.initial setup t))) := by
  unfold runSteps
  cases preflight setup steps with
  | error e => exact .inl ⟨e, rfl⟩
  | ok _ =>
    right
    rcases walkFrom setup host true steps topPath 0 none (.initial setup t) with
      ⟨m, c⟩ | ⟨e | ⟨level, clock⟩ | _ | _, c⟩
    case error.halted.false => exact ⟨⟨⟨[], by simp [final]⟩, rfl, rfl⟩, rfl⟩
    all_goals exact ⟨finishActivity_described _ c, rfl⟩

namespace WalkRules

theorem onTop {here : Path} {topLevel : Bool} (htop : topLevel = true → Describes R)
    {f : PtpCtx τ → PtpCtx τ}
    (hf : ∀ c, Described c (f c)) {c c₁ : PtpCtx τ} {e : Stopped} (hc : R here c e c₁) :
    R here c e (onTop topLevel f c₁) := by
  cases topLevel with
  | true => exact htop rfl hc (hf c₁)
  | false => exact hc

variable {P : EntryStep → Prop} (h : WalkRules setup host R P)

include h

mutual
theorem walk {topLevel : Bool} (htop : topLevel = true → Describes R) :
    ∀ (steps : List EntryStep), EverySteps P steps → ∀ (path : Path) (index : ℕ)
      (last : Option TxMeta), Kept (R path) (walkFrom setup host topLevel steps path index last)
  | [], _, _, _, last => h.pure last
  | s :: rest, ⟨hst, hi, hr⟩, path, index, last => by
    have hrun : Kept (R path) (runStep setup host s (path.step index s)) :=
      (step s hst hi (path.step index s)).mono fun _ _ _ hs =>
        h.inside (List.prefix_append path _) hs
    rw [walkFrom_cons]
    refine h.bind (Kept.modify fun c => onTop htop (enterActivity_described index)
      ((h.composes path).refl c)) fun _ => ?_
    refine Kept.attempt_bind (h.composes path) hrun (fun txMeta => ?_) fun e c c₁ hf => ?_
    · refine h.bind (Kept.modify fun c => onTop htop (leaveActivity_described index)
        ((h.composes path).refl c)) fun _ => ?_
      exact walk htop rest hr path (index + 1) txMeta
    · exact onTop htop (finishActivity_described _) hf

theorem step : ∀ (s : EntryStep), P s → EveryInside P s → ∀ here : Path,
    Kept (R here) (runStep setup host s here)
  | .setProp .., _, _, _ | .setPropRuntime .., _, _, _ | .getProp .., _, _, _
  | .readEcho .., _, _, _ | .sendOp .., _, _, _ | .openChannel .., _, _, _
  | .reopenSession .., _, _, _ | .closeSession .., _, _, _ =>
    h.reported (by simp [stepVerb]) (h.leaf (exchanges_plain rfl))
  | .awaitUntil _ _ onEach _ _ _ _, _, hi, _ =>
    h.reported (by simp [stepVerb]) (h.awaitStep (h.into (walk (by simp) onEach hi _ 0 none)))
  | .retry steps fallback _ _ _ _ _, hs, hi, _ =>
    h.retried hs (walk (by simp) steps hi.1 _ 0 none) (walk (by simp) fallback hi.2 _ 0 none)
  | .forEach _ _ body _, _, hi, _ =>
    h.reported (by simp [stepVerb]) (h.forEachStep (fun _ => h.unbound _) h.looped fun _ =>
      h.into (walk (by simp) body hi _ 0 none))
  | .chunk _ _ _ _ body _, _, hi, _ =>
    h.reported (by simp [stepVerb]) (h.chunkStep fun _ => h.into (walk (by simp) body hi _ 0 none))
  | .ifThen _ _ thenSteps _, _, hi, _ =>
    h.reported (by simp [stepVerb])
      (h.ifStep (h.into (walk (by simp) thenSteps hi _ 0 none)) (h.pure none))
  | .ifElse _ _ thenSteps elseSteps _, _, hi, _ =>
    h.reported (by simp [stepVerb])
      (h.ifStep (h.into (walk (by simp) thenSteps hi.1 _ 0 none))
        (h.into (walk (by simp) elseSteps hi.2 _ 0 none)))
end

end WalkRules

/-! ### Relations that do not look at how a step ends -/

structure FlatRules (setup : Setup) (host : Host τ)
    (R : Path → PtpCtx τ → Stopped → PtpCtx τ → Prop) : Prop extends Rules setup host R where
  regardless : ∀ {here : Path} {c c' : PtpCtx τ} {e e' : Stopped}, R here c e c' → R here c e' c'
  reset : ∀ {here : Path} {c c' : PtpCtx τ}, c'.trace = c.trace →
    c'.activeActivity = c.activeActivity → c'.collections = c.collections → R here c none c'
  announced : ∀ {here : Path} (number limit : ℕ) (err : StepError) (c : PtpCtx τ),
    R here c none (c.retryActivity number limit err)
  attempted : ∀ {here : Path} (number : ℕ) (c : PtpCtx τ),
    R here c none (c.record (.attempt here number))
  resumed : ∀ {here : Path} (step : EntryStep) (err : StepError) (c : PtpCtx τ),
    R here c none (c.record (.resumed step here err))
  started : ∀ {here : Path} (step : EntryStep) (c : PtpCtx τ),
    R here c none (c.record (.report (startedReport setup step here c.activityCorrelation)))
  ended : ∀ {here : Path} {step : EntryStep} {attempts : ℕ} {r : StepReport} {c c₁ : PtpCtx τ},
    Terminal setup step here c.activityCorrelation attempts r → R here c none c₁ →
    R here c none (c₁.record (.report r))

namespace FlatRules

variable (h : FlatRules setup host R) {here : Path}

include h

theorem attempt_bind {α β : Type} {c : Exec τ α} {f : Except StepError α → Exec τ β}
    (hc : Kept (R here) c) (hf : ∀ result, Kept (R here) (f result)) :
    Kept (R here) (attempt c >>= f) :=
  Kept.attempt_bind (h.composes here) hc (fun a => hf (.ok a)) fun e _ c₁ hfa =>
    (h.composes here).trans (h.regardless hfa) (hf (.error e) c₁)

theorem reportStep (step : EntryStep) {body : Exec τ (Option TxMeta)} (hb : Kept (R here) body) :
    Kept (R here) (reportStep setup step here body) := by
  intro c
  -- Both reports name the activity that is under way before the step.
  let c₀ : PtpCtx τ :=
    { c.record (.report (startedReport setup step here c.activityCorrelation)) with
      controlAttempts := none, deferredTolerance := none }
  have hf : R here c none c₀ := (h.composes here).trans (h.started step c) (h.reset rfl rfl rfl)
  have hrun : R here c none (final (withStepClock step here body c₀)) :=
    (h.composes here).trans hf (h.regardless (h.withStepClock step hb c₀))
  have hs : ∀ n, R here c none (settled step n (final (withStepClock step here body c₀))) :=
    fun n => (h.composes here).trans hrun (h.reset rfl rfl rfl)
  have hst : Executor.reportStep setup step here body c =
      (attempt (withStepClock step here body) >>=
        concludeStep setup step here c.activityCorrelation) c₀ := rfl
  rw [hst]
  refine attempt_bind_cases (P := fun r => R here c (ending r) (final r)) (fun m c₁ hr => ?_)
    (fun err c₁ hr => ?_) fun e c₁ hr _ => ?_
  all_goals rw [hr] at hrun hs
  · obtain ⟨m', r, hr', hend⟩ := concludeStep_ok setup step here c.activityCorrelation m c₁
    rw [hend]
    exact h.ended hr' (hs 1)
  · obtain ⟨r, hr', ⟨-, -, hend⟩ | hend⟩ :=
      concludeStep_error setup step here c.activityCorrelation err c₁
    · rw [hend]
      exact h.ended hr' ((h.composes here).trans (hs 1) (h.resumed step err _))
    · rw [hend]
      exact h.regardless (h.ended hr' (hs 0))
  · exact h.regardless hrun

section Retry

variable {step : EntryStep} {selects : StepError → Bool} {limit : ℕ} {delayMs : UInt32}
  {hasFallback : Bool} {primary fallback : Exec τ (Option TxMeta)}

theorem retryGivesUp (hf : Kept (R here) fallback) (number : ℕ) (err : StepError) :
    Kept (R here) (retryGivesUp step here selects hasFallback fallback number err) := by
  refine h.bind (Kept.modify fun _ => h.reset rfl rfl rfl) fun _ => ?_
  refine Kept.ite (fun _ => ?_) fun _ => Kept.throw fun c => h.regardless ((h.composes here).refl c)
  exact h.bind (Kept.modify (h.resumed step err)) fun _ => hf

theorem retryAttempt {failed : StepError → Exec τ (Option TxMeta)} (hp : Kept (R here) primary)
    (hf : ∀ err, Kept (R here) (failed err)) (number : ℕ) :
    Kept (R here) (retryAttempt here primary failed number) := by
  refine h.bind (Kept.modify (h.attempted number)) fun _ => ?_
  refine h.attempt_bind hp fun result => ?_
  cases result with
  | ok txMeta => exact h.bind (Kept.modify fun _ => h.reset rfl rfl rfl) fun _ => h.pure txMeta
  | error err => exact hf err

theorem retryFrom (hp : Kept (R here) primary) (hf : Kept (R here) fallback) :
    ∀ left number, Kept (R here) (retryFrom host step here selects limit delayMs primary hasFallback
      fallback left number) := by
  intro left
  induction left with
  | zero => exact fun number => h.retryAttempt hp (h.retryGivesUp hf number) number
  | succ left ih =>
    refine fun number => h.retryAttempt hp (fun err => ?_) number
    refine Kept.ite (fun _ => ?_) fun _ => h.retryGivesUp hf number err
    refine h.bind (Kept.modify (h.resumed step err)) fun _ => ?_
    refine h.bind (Kept.modify (h.announced (number + 1) limit err)) fun _ => ?_
    refine Kept.ite (fun _ => ?_) fun _ => ih (number + 1)
    exact h.bind (h.leaf (exchanges_pause delayMs)) fun _ => ih (number + 1)

end Retry

theorem walkRules
    (hl : ∀ {here : Path} {c c₁ : PtpCtx τ} {e : Stopped} {event : Event},
      event.IsElement here → R here c e c₁ → R here c e (c₁.record event))
    (hu : ∀ {here : Path} {c : PtpCtx τ} (collection : String),
      c.collections collection = none →
      R here c (some (.failed (.other here (.collectionUnbound collection))))
        (c.record (.failed (.other here (.collectionUnbound collection))))) :
    WalkRules setup host R fun _ => True where
  toRules := h.toRules
  looped := hl
  unbound := hu
  reported _ hb := h.reportStep _ hb
  retried _ hp hf := h.reportStep _ (h.retryFrom (h.into hp) (h.into hf) _ _)

end FlatRules

end Rules

end Ptpsim.Executor
