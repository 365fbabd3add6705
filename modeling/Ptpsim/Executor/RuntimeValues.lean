/-
# Runtime values of a plan

A plan may set properties to values that the host gives it at run time. Before
anything is run the whole plan is gone through, lists inside of steps included,
and it is refused if there is a property that cannot be set. The walk looks at
the values again when it comes to the step; that it finds nothing new is said
by a walk in which something else happens there (`walkWith`): whatever that is,
the run is the same.
-/
import Ptpsim.Executor.Walks
import Ptpsim.Lib.Fallible

namespace Ptpsim.Executor

open Ptpsim.Core Config
open Interrupt hiding Exec

/-! ### The check -/

section Check

variable {check : EntryStep → Path → Except PlanError Unit} {P : EntryStep → Prop}

mutual
/-- A plan passes a check if all its steps do, at any depth. -/
theorem checkFrom_ok_iff (h : ∀ step here, check step here = .ok () ↔ P step) :
    ∀ (steps : List EntryStep) (path : Path) (index : ℕ),
    checkFrom check steps path index = .ok () ↔ EverySteps P steps
  | [], _, _ => by simp [checkFrom, EverySteps]
  | step :: rest, path, index => by
    simp only [checkFrom, Fallible.bind_eq_ok_iff, h, checkInside_ok_iff h step, exists_const,
      checkFrom_ok_iff h rest, EverySteps]

theorem checkInside_ok_iff (h : ∀ step here, check step here = .ok () ↔ P step) :
    ∀ (step : EntryStep) (here : Path),
    checkInside check step here = .ok () ↔ EveryInside P step
  | .awaitUntil _ _ onEach _ _ _ _, _ => by
    rw [checkInside, EveryInside, checkFrom_ok_iff h onEach]
  | .retry steps fallback _ _ _ _ _, _ => by
    simp only [checkInside, Fallible.bind_eq_ok_iff, checkFrom_ok_iff h steps, exists_const,
      checkFrom_ok_iff h fallback, EveryInside]
  | .forEach _ _ body _, _ => by rw [checkInside, EveryInside, checkFrom_ok_iff h body]
  | .chunk _ _ _ _ body _, _ => by rw [checkInside, EveryInside, checkFrom_ok_iff h body]
  | .ifThen _ _ thenSteps _, _ => by rw [checkInside, EveryInside, checkFrom_ok_iff h thenSteps]
  | .ifElse _ _ thenSteps elseSteps _, _ => by
    simp only [checkInside, Fallible.bind_eq_ok_iff, checkFrom_ok_iff h thenSteps, exists_const,
      checkFrom_ok_iff h elseSteps, EveryInside]
  | .setProp .., _ | .setPropRuntime .., _ | .getProp .., _ | .readEcho .., _ | .sendOp .., _
  | .openChannel .., _ | .reopenSession .., _ | .closeSession .., _ => by
    simp [checkInside, EveryInside]
end

end Check

variable {τ : Type} (setup : Setup) (host : Host τ)

/-- A property that is set from a runtime value has a value that can be encoded
for it, or none and may be left out. -/
def usable : EntryStep → Bool
  | .setPropRuntime prop slot ifMissing _ =>
    match setup.runtimeParams slot with
    | none => ifMissing = .skip
    | some value => (encodeRuntimePropertyValue setup prop value).toOption.isSome
  | _ => true

theorem checkRuntimeSetProp_ok_iff (step : EntryStep) (here : Path) :
    checkRuntimeSetProp setup step here = .ok () ↔ usable setup step = true := by
  cases step with
  | setPropRuntime prop slot ifMissing tolerant =>
    cases hv : setup.runtimeParams slot with
    | none => simp [checkRuntimeSetProp, usable, hv]
    | some value =>
      cases he : encodeRuntimePropertyValue setup prop value with
      | ok payload => simp [checkRuntimeSetProp, usable, hv, he, Except.toOption]
      | error message => simp [checkRuntimeSetProp, usable, hv, he, Except.toOption]
  | _ => simp [checkRuntimeSetProp, usable]

theorem preflight_usable {steps : List EntryStep} (h : preflight setup steps = .ok ()) :
    EverySteps (fun step => usable setup step = true) steps := by
  have hc := checkFrom_ok_iff (checkRuntimeSetProp_ok_iff setup) steps topPath 0
  simp only [preflight] at h
  split at h
  · cases h
  · cases h
  · split at h
    · obtain ⟨_, -, h⟩ := Fallible.bind_eq_ok_iff.mp h
      obtain ⟨_, -, h⟩ := Fallible.bind_eq_ok_iff.mp h
      exact hc.mp h
    · cases h
    · exact hc.mp h

/-! ### A walk in which something else happens -/

section With

variable (unusable : EntryStep → Path → Exec τ (Option TxMeta))

mutual
/-- The walk, with `unusable` where a value cannot be set. -/
def walkWith (topLevel : Bool) :
    List EntryStep → Path → ℕ → Option TxMeta → Exec τ (Option TxMeta)
  | [], _, _, last => pure last
  | step :: rest, path, index, _ => do
    if topLevel then modify (enterActivity setup index)
    let here := path.step index step
    match ← attempt (reportStep setup step here (runStepOnceWith step here)) with
    | .ok txMeta => do
      if topLevel then modify (leaveActivity index)
      walkWith topLevel rest path (index + 1) txMeta
    | .error e => do
      if topLevel then modify (PtpCtx.finishActivityFailure e)
      throw (.failed e)

def runStepOnceWith : EntryStep → Path → Exec τ (Option TxMeta)
  | .awaitUntil source condition onEach captures timeoutMs intervalMs tolerant, here =>
    awaitStep setup host
      (.awaitUntil source condition onEach captures timeoutMs intervalMs tolerant) here source
      condition captures timeoutMs intervalMs (walkWith false onEach (here.into .onEach) 0 none)
  | .retry steps fallback codes classes maxAttempts delayMs tolerant, here =>
    retrySteps host (.retry steps fallback codes classes maxAttempts delayMs tolerant) here codes
      classes maxAttempts delayMs (walkWith false steps (here.into .steps) 0 none)
      (!fallback.isEmpty) (walkWith false fallback (here.into .fallback) 0 none)
  | .forEach collection bind body _, here =>
    forEachStep here collection bind fun index =>
      walkWith false body (here.into (.forEach index)) 0 none
  | .chunk total size offsetBind lengthBind body _, here =>
    chunkStep here total size offsetBind lengthBind fun index =>
      walkWith false body (here.into (.chunk index)) 0 none
  | .ifThen slot equals thenSteps _, here =>
    ifStep here slot equals (walkWith false thenSteps (here.into .then) 0 none) (pure none)
  | .ifElse slot equals thenSteps elseSteps _, here =>
    ifStep here slot equals (walkWith false thenSteps (here.into .then) 0 none)
      (walkWith false elseSteps (here.into .else) 0 none)
  -- A step without steps inside; only a runtime value can be unusable.
  | step, here => if usable setup step then runStepOnce setup host step here else unusable step here
end

/-- The run in which something else happens where a property cannot be set. -/
def runStepsWith (steps : List EntryStep) (t : τ) : RunEnd × PtpCtx τ :=
  match preflight setup steps with
  | .error e => (.refused e, .initial setup t)
  | .ok () =>
    match walkWith setup host unusable true steps topPath 0 none (.initial setup t) with
    | .ok _ c => (.finished, c.finishActivitySuccess)
    | .error (.failed e) c => (.failed e, c.cancelActivity)
    | .error (.dropped _ _) c => (.abandoned, c.cancelActivity)
    | .error (.halted true) c => (.panicked, c.cancelActivity)
    | .error (.halted false) c => (.pending, c)

mutual
theorem walkWith_eq (topLevel : Bool) : ∀ (steps : List EntryStep),
    EverySteps (fun step => usable setup step = true) steps → ∀ path index last,
    walkWith setup host unusable topLevel steps path index last =
      walkFrom setup host topLevel steps path index last
  | [], _, _, _, _ => by rw [walkWith, walkFrom]
  | step :: rest, ⟨hs, hi, hr⟩, path, index, _ => by
    have hb : runStepOnceWith setup host unusable step = runStepOnce setup host step :=
      funext (runStepOnceWith_eq step hs hi)
    have hw : walkWith setup host unusable topLevel rest = walkFrom setup host topLevel rest :=
      funext₃ (walkWith_eq topLevel rest hr)
    rw [walkWith, walkFrom]
    generalize runStepOnceWith setup host unusable step = body at hb
    generalize walkWith setup host unusable topLevel rest = walk at hw
    subst hb hw
    rfl

theorem runStepOnceWith_eq : ∀ step : EntryStep, usable setup step = true →
    EveryInside (fun step => usable setup step = true) step → ∀ here,
    runStepOnceWith setup host unusable step here = runStepOnce setup host step here
  | .awaitUntil _ _ onEach _ _ _ _, _, hi, _ => by
    simp only [runStepOnceWith, runStepOnce, walkWith_eq false onEach hi]
  | .retry steps fallback _ _ _ _ _, _, hi, _ => by
    simp only [runStepOnceWith, runStepOnce, walkWith_eq false steps hi.1,
      walkWith_eq false fallback hi.2]
  | .forEach _ _ body _, _, hi, _ => by
    simp only [runStepOnceWith, runStepOnce, walkWith_eq false body hi]
  | .chunk _ _ _ _ body _, _, hi, _ => by
    simp only [runStepOnceWith, runStepOnce, walkWith_eq false body hi]
  | .ifThen _ _ thenSteps _, _, hi, _ => by
    simp only [runStepOnceWith, runStepOnce, walkWith_eq false thenSteps hi]
  | .ifElse _ _ thenSteps elseSteps _, _, hi, _ => by
    simp only [runStepOnceWith, runStepOnce, walkWith_eq false thenSteps hi.1,
      walkWith_eq false elseSteps hi.2]
  | .setProp .., hs, _, _ | .setPropRuntime .., hs, _, _ | .getProp .., hs, _, _
  | .readEcho .., hs, _, _ | .sendOp .., hs, _, _ | .openChannel .., hs, _, _
  | .reopenSession .., hs, _, _ | .closeSession .., hs, _, _ => by
    simp only [runStepOnceWith, hs, if_true]
end

end With

/-- The property is left out, or the exchange that sets it is all there is. -/
def Sends (prop : UInt16) (here : Path) (body : Exec τ (Option TxMeta)) : Prop :=
  body = pure none ∨ ∃ payload, body = do
    let reply ← issue setup host here Op.setDevicePropValue [prop.toUInt32] (some payload)
      (some prop)
    some <$> requireOk here reply

theorem sends_of_usable {prop : UInt16} {slot : String} {ifMissing : MissingRuntimeValue}
    {tolerant : Bool} (h : usable setup (.setPropRuntime prop slot ifMissing tolerant) = true)
    (here : Path) : Sends setup host prop here
      (runStepOnce setup host (.setPropRuntime prop slot ifMissing tolerant) here) := by
  unfold usable at h
  cases hv : setup.runtimeParams slot with
  | none =>
    simp only [hv, decide_eq_true_eq] at h
    subst h
    exact .inl (by simp only [runStepOnce, setPropertyRuntime, hv])
  | some value =>
    simp only [hv] at h
    cases he : encodeRuntimePropertyValue setup prop value with
    | ok payload =>
      refine .inr ⟨payload, ?_⟩
      simp only [runStepOnce, setPropertyRuntime, hv, he]
      rfl
    | error message =>
      rw [he] at h
      cases h

/-- **Runtime values of a plan.** A plan with a property that cannot be set from
its runtime value, at any depth and reached or not, is refused before anything
is asked of the host. A run never comes to such a property: whatever happened
there instead, the run would be the same. At all others the value is sent, or
there is none and it may be left out. -/
theorem runtime_values_checked (steps : List EntryStep) (t : τ) :
    (¬ EverySteps (fun step => usable setup step = true) steps →
      ∃ e c, runSteps setup host steps t = (.refused e, c) ∧ c.trace = [] ∧ c.host = t) ∧
    (∀ unusable, runStepsWith setup host unusable steps t = runSteps setup host steps t) ∧
    ∀ prop slot ifMissing tolerant here,
      usable setup (.setPropRuntime prop slot ifMissing tolerant) = true →
      Sends setup host prop here
        (runStepOnce setup host (.setPropRuntime prop slot ifMissing tolerant) here) := by
  unfold runStepsWith runSteps
  cases h : preflight setup steps with
  | error e =>
    exact ⟨fun _ => ⟨e, _, rfl, rfl, rfl⟩, fun _ => rfl,
      fun _ _ _ _ here hs => sends_of_usable setup host hs here⟩
  | ok _ =>
    have hu := preflight_usable setup h
    refine ⟨fun hn => absurd hu hn, fun unusable => ?_,
      fun _ _ _ _ here hs => sends_of_usable setup host hs here⟩
    have hw := walkWith_eq setup host unusable true steps hu topPath 0 none
    generalize walkWith setup host unusable true steps topPath 0 none = walk at hw
    subst hw
    rfl

end Ptpsim.Executor
