/-
# Loops over collections that are bound

The check of step lists counts on a collection where every way to the step
binds it. A run of the executor agrees with that: where the check says that a
collection is bound it is, whatever attempts, fallbacks, tolerated failures
and loops lie behind, because collections are never unbound, and because a
step that is to bind one has either done so or failed for good.

`Definite` says on the steps of a plan what the check says on the steps of the
manifest; `Grants` is what a computation gives that starts with collections
bound.
-/
import Ptpsim.Config.StepLists
import Ptpsim.Executor.Failures

namespace Ptpsim.Executor

open Ptpsim.Core Config Fallible List Option
open Interrupt hiding Exec

/-! ### What a plan binds -/

/-- The names that the captures bind to a collection. -/
def arrayBinds (captures : List CaptureInfo) : Finset String :=
  ((captures.filter fun capture => capture.source = .ptpU32Array).map (·.bind)).toFinset

theorem mem_arrayBinds {captures : List CaptureInfo} {name : String} :
    name ∈ arrayBinds captures ↔
      ∃ capture ∈ captures, capture.source = .ptpU32Array ∧ capture.bind = name := by
  simp [arrayBinds, and_assoc]

mutual
/-- Some step outside of loops is a loop over a collection. -/
def containsForEach : List EntryStep → Bool
  | [] => false
  | step :: rest => stepContainsForEach step || containsForEach rest

def stepContainsForEach : EntryStep → Bool
  | .forEach .. => true
  | .awaitUntil _ _ onEach _ _ _ _ => containsForEach onEach
  | .retry steps fallback _ _ _ _ _ => containsForEach steps || containsForEach fallback
  | .ifThen _ _ thenSteps _ => containsForEach thenSteps
  | .ifElse _ _ thenSteps elseSteps _ => containsForEach thenSteps || containsForEach elseSteps
  | _ => false
end

mutual
/-- With `A` bound before the steps, `B` is bound after them, no loop is over a
collection that might not be bound, and none is run again by a retry. -/
def Definite : List EntryStep → Finset String → Finset String → Prop
  | [], A, B => B ⊆ A
  | step :: rest, A, C => ∃ B, DefiniteStep step A B ∧ Definite rest B C

def DefiniteStep : EntryStep → Finset String → Finset String → Prop
  | .getProp _ captures tolerant, A, B => B ⊆ A ∪ arrayBinds captures ∧
      ∀ capture ∈ captures, capture.source = .ptpU32Array →
        capture.fallback = none ∧ tolerant = false
  | .sendOp _ _ captures _ tolerant, A, B => B ⊆ A ∪ arrayBinds captures ∧
      ∀ capture ∈ captures, capture.source = .ptpU32Array → tolerant = false
  | .retry steps fallback _ _ _ _ tolerant, A, B =>
    (∃ C, Definite steps A C ∧ B ⊆ C) ∧ (fallback ≠ [] → ∃ C, Definite fallback A C ∧ B ⊆ C) ∧
      (tolerant = true → B ⊆ A) ∧ containsForEach steps = false ∧ containsForEach fallback = false
  | .awaitUntil _ _ onEach _ _ _ _, A, B => (∃ C, Definite onEach A C) ∧ B ⊆ A
  | .forEach collection _ body _, A, B => collection ∈ A ∧ (∃ C, Definite body A C) ∧ B ⊆ A
  | .chunk _ _ _ _ body _, A, B => (∃ C, Definite body A C) ∧ B ⊆ A
  | .ifThen _ _ thenSteps _, A, B => (∃ C, Definite thenSteps A C ∧ B ⊆ C) ∧ B ⊆ A
  | .ifElse _ _ thenSteps elseSteps _, A, B =>
    (∃ C, Definite thenSteps A C ∧ B ⊆ C) ∧ ∃ C, Definite elseSteps A C ∧ B ⊆ C
  | .setProp .., A, B | .setPropRuntime .., A, B | .readEcho .., A, B | .openChannel .., A, B
  | .reopenSession .., A, B | .closeSession .., A, B => B ⊆ A
end

/-! ### What a computation gives -/

section Grants

variable {τ : Type}

def PtpCtx.Binds (c : PtpCtx τ) (A : Finset String) : Prop :=
  ∀ name ∈ A, (c.collections name).isSome = true

/-- No collection is unbound, and no loop finds one that is not bound. -/
structure Grown (c c' : PtpCtx τ) : Prop where
  bound : ∀ name, (c.collections name).isSome = true → (c'.collections name).isSome = true
  traced : ∃ added, c'.trace = c.trace ++ added ∧
    ∀ e, .failed e ∈ added → e.detail.isUnbound = false

/-- The computation, started with `A` bound, ends with `B` bound if it has a
result. -/
def Grants {α : Type} (A : Finset String) (m : Exec τ α) (B : Finset String) : Prop :=
  ∀ c, c.Binds A → Grown c (final (m c)) ∧ (ending (m c) = none → (final (m c)).Binds B)

variable {c c' : PtpCtx τ}

theorem PtpCtx.Binds.mono {A B : Finset String} (h : c.Binds A) (hsub : B ⊆ A) :
    c.Binds B := fun name hn => h name (hsub hn)

theorem Grown.binds {A : Finset String} (h : Grown c c') (hA : c.Binds A) :
    c'.Binds A := fun name hn => h.bound name (hA name hn)

theorem Grown.refl (c : PtpCtx τ) : Grown c c := ⟨fun _ h => h, [], by simp, by simp⟩

theorem Grown.trans {c₁ c₂ : PtpCtx τ} (h : Grown c c₁) (h' : Grown c₁ c₂) : Grown c c₂ := by
  obtain ⟨hb, added, ht, hadded⟩ := h
  obtain ⟨hb', added', ht', hadded'⟩ := h'
  refine ⟨fun name hn => hb' name (hb name hn), added ++ added',
    by rw [ht', ht, append_assoc], fun e hmem => ?_⟩
  exact (mem_append.mp hmem).elim (hadded e) (hadded' e)

theorem Grown.of_same (hc : c'.collections = c.collections) (added : List Event)
    (ht : c'.trace = c.trace ++ added) (hadded : ∀ e, .failed e ∉ added) : Grown c c' :=
  ⟨fun name h => by rwa [hc], added, ht, fun e hmem => absurd hmem (hadded e)⟩

theorem Grown.of_described (h : Described c c') : Grown c c' := by
  obtain ⟨⟨added, ht⟩, -, hc⟩ := h
  exact .of_same hc _ ht (by simp)

theorem Grown.of_rest (ht : c'.trace = c.trace) (hc : c'.collections = c.collections) :
    Grown c c' :=
  .of_same hc [] (by simp [ht]) (by simp)

variable {setup : Setup} {host : Host τ} {here : Path} {A B C : Finset String} {α β : Type}
  {m : Exec τ α}

theorem Grants.mono (h : Grants A m B) (hsub : C ⊆ B) : Grants A m C :=
  fun c hc => ⟨(h c hc).1, fun hend => ((h c hc).2 hend).mono hsub⟩

theorem Grants.kept (h : Grants A m B) : Grants A m A :=
  fun c hc => ⟨(h c hc).1, fun _ => (h c hc).1.binds hc⟩

theorem grants_pure (a : α) : Grants A (pure a : Exec τ α) A := fun c hc => ⟨.refl c, fun _ => hc⟩

theorem grants_throw {e : Stop StepError (Except TransportError Unit)} :
    Grants A (throw e : Exec τ α) B := fun c _ => ⟨.refl c, fun h => by cases h⟩

theorem Grants.bind {f : α → Exec τ β} (h : Grants A m B) (hf : ∀ a, Grants B (f a) C) :
    Grants A (m >>= f) C := by
  intro c hc
  obtain ⟨hg, hend⟩ := h c hc
  rcases hr : m c with ⟨a, c₁⟩ | ⟨e, c₁⟩
  · rw [hr] at hg hend
    obtain ⟨hg', hend'⟩ := hf a c₁ (hend rfl)
    rw [bind_ok hr]
    exact ⟨hg.trans hg', hend'⟩
  · rw [hr] at hg
    rw [bind_error hr]
    exact ⟨hg, fun h => by cases h⟩

theorem grants_get_bind {f : PtpCtx τ → Exec τ α}
    (hf : ∀ c, c.Binds A → Grown c (final (f c c)) ∧
      (ending (f c c) = none → (final (f c c)).Binds B)) : Grants A (get >>= f) B :=
  fun c hc => hf c hc

theorem Grants.attempt_bind {f : Except StepError α → Exec τ β} (h : Grants A m B)
    (hok : ∀ a, Grants B (f (.ok a)) C) (he : ∀ e, Grants A (f (.error e)) C) :
    Grants A (attempt m >>= f) C := by
  intro c hc
  obtain ⟨hg, hend⟩ := h c hc
  refine attempt_bind_cases
    (P := fun r => Grown c (final r) ∧ (ending r = none → (final r).Binds C))
    (fun a c₁ hr => ?_) (fun e c₁ hr => ?_) fun e c₁ hr _ => ?_
  all_goals rw [hr] at hg hend
  · obtain ⟨hg', hend'⟩ := hok a c₁ (hend rfl)
    exact ⟨hg.trans hg', hend'⟩
  · obtain ⟨hg', hend'⟩ := he e c₁ (hg.binds hc)
    exact ⟨hg.trans hg', hend'⟩
  · exact ⟨hg, fun h => by cases h⟩

theorem Grants.race {late : Except TransportError Unit → Exec τ α} (h : Grants A m B)
    (hl : ∀ clock, Grants A (late clock) B) : Grants A (race m late) B := by
  intro c hc
  obtain ⟨hg, hend⟩ := h c hc
  rcases hr : m c with ⟨a, c₁⟩ | ⟨e | ⟨_ | level, clock⟩ | _, c₁⟩
  all_goals rw [hr] at hg hend
  · rw [race_ok hr]
    exact ⟨hg, hend⟩
  · rw [race_failed hr]
    exact ⟨hg, hend⟩
  · obtain ⟨hg', hend'⟩ := hl clock c₁ (hg.binds hc)
    rw [race_late hr]
    exact ⟨hg.trans hg', hend'⟩
  · rw [race_outer hr]
    exact ⟨hg, fun h => by cases h⟩
  · rw [race_halted hr]
    exact ⟨hg, fun h => by cases h⟩

theorem Grants.ite {p : Prop} [Decidable p] {m' : Exec τ α} (h : p → Grants A m B)
    (h' : ¬ p → Grants A m' B) : Grants A (if p then m else m') B := by
  split
  · exact h ‹_›
  · exact h' ‹_›

theorem Grown.of_exchanged {e : Stopped} (h : Exchanged setup host here c e c') : Grown c c' := by
  obtain ⟨-, -, hb, -, -, added, ht, he, -⟩ := h
  exact ⟨hb, added, ht, fun e hmem => (he _ hmem).2⟩

theorem grants_leaf (h : Exchanges setup host here m) : Grants A m A :=
  fun c hc => ⟨.of_exchanged (h c), fun _ => (Grown.of_exchanged (h c)).binds hc⟩

theorem grants_modify {f : PtpCtx τ → PtpCtx τ} (hf : ∀ c, Grown c (f c)) :
    Grants A (modify f : Exec τ PUnit) A :=
  fun c hc => ⟨hf c, fun _ => (hf c).binds hc⟩

theorem grants_emit {event : Event} (h : ∀ e, event ≠ .failed e) :
    Grants A (emit event : Exec τ PUnit) A := by
  intro c hc
  have hg : Grown c (c.record event) :=
    .of_same rfl [event] rfl fun e hmem => h e (mem_singleton.mp hmem).symm
  exact ⟨hg, fun _ => hg.binds hc⟩

theorem grants_fail {e : StepError} (h : e.detail.isUnbound = false) :
    Grants A (fail e : Exec τ α) B := by
  intro c _
  refine ⟨⟨fun _ h => h, [.failed e], rfl, fun e' hmem => ?_⟩, fun h => by cases h⟩
  obtain rfl : e' = e := by simpa using hmem
  exact h

theorem grants_orFail {ε : Type} {error : ε → StepError}
    (h : ∀ e, (error e).detail.isUnbound = false)
    (r : Except ε α) : Grants A (orFail error r : Exec τ α) A := by
  cases r with
  | ok a => exact grants_pure a
  | error e => exact grants_fail (h e)

/-! ### Captures -/

theorem grants_bindCollection (slot : String) (values : List UInt64) :
    Grants A (modify fun c : PtpCtx τ => c.bindCollection slot values : Exec τ PUnit)
      (insert slot A) := by
  intro c hc
  have hb : ∀ name, (c.collections name).isSome = true →
      ((c.bindCollection slot values).collections name).isSome = true := by
    intro name h
    by_cases hn : name = slot
    · simp [PtpCtx.bindCollection, hn]
    · simpa [PtpCtx.bindCollection, hn] using h
  refine ⟨⟨hb, [], (append_nil _).symm, by simp⟩, fun _ name hn => ?_⟩
  rcases Finset.mem_insert.mp hn with rfl | hn
  · exact congrArg Option.isSome (Function.update_self name (some values) c.collections)
  · exact hb name (hc name hn)

variable {capture : CaptureInfo} {captures : List CaptureInfo}

theorem insert_union_arrayBinds (rest : List CaptureInfo) (h : capture.source = .ptpU32Array) :
    insert capture.bind A ∪ arrayBinds rest = A ∪ arrayBinds (capture :: rest) := by
  have hb : arrayBinds (capture :: rest) = insert capture.bind (arrayBinds rest) := by
    simp [arrayBinds, h]
  rw [hb, Finset.insert_union, Finset.union_insert]

theorem arrayBinds_cons_of_ne (rest : List CaptureInfo) (h : capture.source ≠ .ptpU32Array) :
    arrayBinds (capture :: rest) = arrayBinds rest := by
  simp [arrayBinds, h]

theorem grants_bindCollections (values : List UInt64) : ∀ (captures : List CaptureInfo)
    (A : Finset String), Grants A (bindCollections here values captures : Exec τ Unit)
      (A ∪ arrayBinds captures)
  | [], A => (grants_pure ()).mono (by simp [arrayBinds])
  | capture :: rest, A => by
    refine Grants.ite (fun _ => grants_fail rfl) fun ha => ?_
    rw [← insert_union_arrayBinds rest (not_not.mp ha)]
    exact (grants_bindCollection capture.bind values).bind fun _ =>
      grants_bindCollections values rest _

theorem grants_applyCapturesFrom (setup : Setup) (host : Host τ) (operation : UInt16) (tid : UInt32)
    (payload : List UInt8) : ∀ (captures : List CaptureInfo) (values : List (String × UInt64))
      (A : Finset String),
      Grants A (applyCapturesFrom here operation tid payload captures values : Exec τ Unit)
        (A ∪ arrayBinds captures)
  | [], values, A => by
    have hb : Exchanges setup host here (modify (bindAll values) : Exec τ PUnit) :=
      exchanges_bindAll values
    exact (grants_leaf hb).mono (by simp [arrayBinds])
  | capture :: rest, values, A => by
    refine Grants.ite (fun ha => ?_) fun ha => ?_
    · rw [← insert_union_arrayBinds rest ha]
      refine (grants_orFail (fun _ => rfl) _).bind fun collection => ?_
      exact (grants_bindCollection capture.bind collection).bind fun _ =>
        grants_applyCapturesFrom setup host operation tid payload rest values _
    · have hs : Exchanges setup host here
          (scalarCapture here operation tid payload capture.source : Exec τ UInt64) :=
        exchanges_scalarCapture operation tid payload _
      rw [arrayBinds_cons_of_ne rest ha]
      exact (grants_leaf hs).bind fun _ =>
        grants_applyCapturesFrom setup host operation tid payload rest _ _

theorem arrayBinds_eq_empty (h : ∀ capture ∈ captures, capture.source ≠ .ptpU32Array) :
    arrayBinds captures = ∅ := by
  refine Finset.eq_empty_of_forall_notMem fun name hn => ?_
  obtain ⟨capture, hmem, hs, -⟩ := mem_arrayBinds.mp hn
  exact h capture hmem hs

theorem grants_captureProperty (host : Host τ) (prop : UInt16) (captures : List CaptureInfo)
    (payload : List UInt8) :
    Grants A (captureProperty setup here prop captures payload : Exec τ Unit)
      (A ∪ arrayBinds captures) := by
  by_cases ha : captures.any fun capture => capture.source = .ptpU32Array
  · unfold captureProperty
    rw [if_pos ha]
    exact (grants_orFail (fun _ => rfl) _).bind fun values =>
      grants_bindCollections values captures A
  · have hl : Exchanges setup host here (captureProperty setup here prop captures payload) :=
      exchanges_captureProperty prop captures payload
    refine (grants_leaf hl).mono ?_
    rw [arrayBinds_eq_empty (by simpa using ha), Finset.union_empty]

theorem mapM_cons_eq_some {f : α → Option β} {a : α} {as : List α} {bs : List β} :
    (a :: as).mapM f = some bs ↔ ∃ b bs', f a = some b ∧ as.mapM f = some bs' ∧ bs = b :: bs' := by
  simp only [List.mapM_cons, Option.bind_eq_bind, Option.bind_eq_some_iff, Option.pure_def,
    Option.some.injEq, eq_comm (b := bs)]
  grind

theorem exists_of_mapM {f : α → Option β} : ∀ {as : List α} {bs : List β}, as.mapM f = some bs →
    (∀ a ∈ as, ∃ b ∈ bs, f a = some b) ∧ ∀ b ∈ bs, ∃ a ∈ as, f a = some b
  | [], bs, h => by
    obtain rfl : bs = [] := by simpa [eq_comm] using h
    simp
  | a :: as, bs, h => by
    obtain ⟨b, bs', hb, hr, rfl⟩ := mapM_cons_eq_some.mp h
    obtain ⟨hf, hba⟩ := exists_of_mapM hr
    grind

theorem captureFallbacks_none (hmem : capture ∈ captures) (hf : capture.fallback = none)
    (code : UInt16) : captureFallbacks captures code = none := by
  have hm : (captures.mapM fun (capture : CaptureInfo) =>
      (capture.fallback.filter fun fallback =>
        fallback.whenResponseCodes.contains code).map fun fallback =>
          (capture.bind, fallback.value)) = none := by
    rw [eq_none_iff_forall_ne_some]
    intro values hva
    obtain ⟨value, -, hv⟩ := (exists_of_mapM hva).1 capture hmem
    simp [hf] at hv
  rw [captureFallbacks, hm]
  rfl

theorem grants_getProperty (prop : UInt16) (captures : List CaptureInfo) (tolerant : Bool)
    (ha : ∀ capture ∈ captures, capture.source = .ptpU32Array → capture.fallback = none) :
    Grants A (getProperty setup host (.getProp prop captures tolerant) prop captures here)
      (A ∪ arrayBinds captures) := by
  by_cases hn : ∀ capture ∈ captures, capture.source ≠ .ptpU32Array
  · refine (grants_leaf (exchanges_getProperty prop captures tolerant)).mono ?_
    rw [arrayBinds_eq_empty hn, Finset.union_empty]
  · push Not at hn
    obtain ⟨capture, hmem, hs⟩ := hn
    refine (grants_leaf (exchanges_issue _ _ _ _)).bind fun reply => ?_
    refine Grants.ite (fun _ => ?_) fun _ => ?_
    · rw [captureFallbacks_none hmem (ha capture hmem hs)]
      exact grants_fail rfl
    · exact (grants_captureProperty host prop captures _).bind fun _ => grants_pure _

variable {step : EntryStep} {body : Exec τ (Option TxMeta)}

theorem grants_sendOperation
    (ha : ∀ capture ∈ captures, capture.source = .ptpU32Array → stepTolerant step = false)
    (op : UInt16) (params : List UInt32) (n : ℕ) (last : Option TxMeta) :
    Grants A (sendOperation setup host step op params captures here (n + 1) last)
      (A ∪ arrayBinds captures) := by
  by_cases hn : ∀ capture ∈ captures, capture.source ≠ .ptpU32Array
  · refine (grants_leaf (exchanges_sendOperation step op params captures _ last)).mono ?_
    rw [arrayBinds_eq_empty hn, Finset.union_empty]
  · push Not at hn
    obtain ⟨capture, hmem, hs⟩ := hn
    refine (grants_leaf (exchanges_issue op params none none)).bind fun reply => ?_
    refine Grants.ite (fun _ => ?_) fun hok => ?_
    · refine (grants_applyCapturesFrom setup host op _ _ captures [] A).bind fun _ => ?_
      exact grants_leaf (exchanges_sendOperation step op params captures n _)
    · have hf : (requireOkOrTolerate step here reply : Exec τ TxMeta) =
          fail (responseError here reply.txMeta) := by
        simp [requireOkOrTolerate, hok, ha capture hmem hs]
      rw [hf]
      exact (grants_fail (B := A ∪ arrayBinds captures) rfl).bind fun _ =>
        grants_leaf (exchanges_sendOperation step op params captures n _)

/-! ### Reports, retries and loops -/

theorem grants_withStepClock (step : EntryStep) (hb : Grants A body B) :
    Grants A (withStepClock step here body) B := by
  have hr : Grants A (Interrupt.race body fun clock =>
      fail (clockError here .step defaultStepTimeoutMs clock)) B :=
    hb.race fun clock => grants_fail (at_clockError .step defaultStepTimeoutMs clock).bound
  cases step <;> first | exact hr | exact hb

/-- A step that tolerates a failure has to do without what its body binds. -/
theorem grants_reportStep (hb : Grants A body B) (ht : stepTolerant step = true → B ⊆ A) :
    Grants A (reportStep setup step here body) B := by
  refine grants_get_bind fun c₀ hc₀ => ?_
  suffices h : Grants A (do
      emit (.report (startedReport setup step here c₀.activityCorrelation))
      modify fun c => { c with controlAttempts := none, deferredTolerance := none }
      let result ← attempt (withStepClock step here body)
      concludeStep setup step here c₀.activityCorrelation result) B from h c₀ hc₀
  refine (grants_emit (by simp)).bind fun _ => ?_
  refine Grants.bind (grants_modify fun _ => ?reset) fun _ => ?_
  case reset => exact .of_rest rfl rfl
  refine (grants_withStepClock step hb).attempt_bind (fun txMeta c hc => ?_) fun e c hc => ?_
  · obtain ⟨m, r, -, hco⟩ := concludeStep_ok setup step here c₀.activityCorrelation txMeta c
    rw [hco]
    have hg : Grown c ((settled step 1 c).record (.report r)) :=
      .of_same rfl [.report r] rfl (by simp)
    exact ⟨hg, fun _ => hg.binds hc⟩
  · obtain ⟨r, -, ⟨htol, -, hco⟩ | hco⟩ :=
      concludeStep_error setup step here c₀.activityCorrelation e c
    · rw [hco]
      have hg : Grown c (((settled step 1 c).record (.resumed step here e)).record (.report r)) :=
        .of_same rfl [.resumed step here e, .report r] (by simp [settled, PtpCtx.record]) (by simp)
      exact ⟨hg, fun _ => (hg.binds hc).mono (ht htol)⟩
    · rw [hco]
      exact ⟨.of_same rfl [.report r] rfl (by simp), fun h => by cases h⟩

theorem grants_retryGivesUp {selects : StepError → Bool} {hasFallback : Bool}
    {fallback : Exec τ (Option TxMeta)} (hf : hasFallback = true → Grants A fallback B) (number : ℕ)
    (e : StepError) :
    Grants A (retryGivesUp step here selects hasFallback fallback number e) B := by
  refine Grants.bind (grants_modify fun _ => ?count) fun _ => ?_
  case count => exact .of_rest rfl rfl
  refine Grants.ite (fun h => ?_) fun _ => grants_throw
  refine (grants_emit (by simp)).bind fun _ => hf ?_
  exact (Bool.and_eq_true _ _ ▸ h).2

theorem grants_retryFrom (setup : Setup) {selects : StepError → Bool} {limit : ℕ} {delayMs : UInt32}
    {primary fallback : Exec τ (Option TxMeta)} {hasFallback : Bool} (hpr : Grants A primary B)
    (hf : hasFallback = true → Grants A fallback B) :
    ∀ left number, Grants A (retryFrom host step here selects limit delayMs primary hasFallback
      fallback left number) B := by
  have ha : ∀ (failed : StepError → Exec τ (Option TxMeta)) (number : ℕ),
      (∀ e, Grants A (failed e) B) → Grants A (retryAttempt here primary failed number) B := by
    intro failed number hfa
    refine (grants_emit (by simp)).bind fun _ => ?_
    refine hpr.attempt_bind (fun txMeta => ?_) hfa
    refine Grants.bind (grants_modify fun _ => ?count) fun _ => grants_pure _
    exact .of_rest rfl rfl
  intro left
  induction left with
  | zero => exact fun number => ha _ number (grants_retryGivesUp hf number)
  | succ left ih =>
    refine fun number => ha _ number fun e => ?_
    refine Grants.ite (fun _ => ?_) fun _ => grants_retryGivesUp hf number e
    refine (grants_emit (by simp)).bind fun _ => ?_
    refine (grants_modify fun c => .of_described
      (retryActivity_described (number + 1) limit e c)).bind fun _ => ?_
    refine Grants.ite (fun _ => ?_) fun _ => ih (number + 1)
    have hp : Exchanges setup host here (pause host delayMs here) := exchanges_pause delayMs
    exact (grants_leaf hp).bind fun _ => ih (number + 1)

/-- With `A` bound, nothing gets lost. -/
def Secures (A : Finset String) (_ : Path) (c : PtpCtx τ) (_ : Stopped) (c' : PtpCtx τ) : Prop :=
  c.Binds A → Grown c c'

theorem Grants.secures (h : Grants A m B) : Kept (Secures A here) m := fun c hc => (h c hc).1

theorem grants_of_secures (h : Kept (Secures A here) m) : Grants A m A :=
  fun c hc => ⟨h c hc, fun _ => (h c hc).binds hc⟩

theorem secures_rules : Rules setup host (Secures A) where
  composes _ :=
    { refl := fun c _ => .refl c
      trans := fun h h' hc => (h hc).trans (h' ((h hc).binds hc)) }
  inside _ h := h
  exchanged h _ := .of_exchanged h
  rescoped h hs hc := (h hc).trans (.of_rest hs.trace hs.collections)
  late h := h
  outer h := h
  halted := fun _ => .refl _

/-- The one place that asks for a collection. -/
theorem grants_forEachStep {collection slot : String} {body : ℕ → Exec τ (Option TxMeta)}
    (setup : Setup) (host : Host τ) (hbo : collection ∈ A)
    (hb : ∀ index, Grants A (body index) A) :
    Grants A (forEachStep here collection slot body) A := by
  have hr : Rules setup host (Secures A) := secures_rules
  refine grants_of_secures (hr.forEachStep (fun c hn hc => ?_) (fun {c c₁ e event} he h hc => ?_)
    fun index => (hb index).secures)
  · have hs := hc collection hbo
    simp [hn] at hs
  · refine (h hc).trans (.of_same rfl [event] rfl fun e' hmem => ?_)
    obtain rfl : event = .failed e' := by simpa [eq_comm] using hmem
    exact he

theorem grants_ifStep {slot : String} {equals : UInt64}
    {thenSteps elseSteps : Exec τ (Option TxMeta)}
    (setup : Setup) (host : Host τ) (ht : Grants A thenSteps B) (he : Grants A elseSteps B) :
    Grants A (ifStep here slot equals thenSteps elseSteps) B := by
  have hs : Exchanges setup host here
      (slotU64 slot (.other here (.ifSlot slot)) : Exec τ UInt64) :=
    exchanges_slotU64 slot (at_other rfl)
  exact (grants_leaf hs).bind fun _ => Grants.ite (fun _ => ht) fun _ => he

/-! ### The walk -/

theorem Grown.onTop {topLevel : Bool} {f : PtpCtx τ → PtpCtx τ} (hf : ∀ c, Described c (f c))
    (c : PtpCtx τ) : Grown c (Executor.onTop topLevel f c) := by
  cases topLevel with
  | true => exact .of_described (hf c)
  | false => exact .refl c

theorem grants_plain (hb : Grants A body A) (hsub : B ⊆ A) :
    Grants A (reportStep setup step here body) B :=
  (grants_reportStep hb fun _ => subset_rfl).mono hsub

theorem grants_captured (hb : Grants A body (A ∪ arrayBinds captures))
    (ht : ∀ capture ∈ captures, capture.source = .ptpU32Array → stepTolerant step = false)
    (hsub : B ⊆ A ∪ arrayBinds captures) : Grants A (reportStep setup step here body) B := by
  refine (grants_reportStep hb fun htol => ?_).mono hsub
  rw [arrayBinds_eq_empty fun capture hmem hs => ?_, Finset.union_empty]
  simp [ht capture hmem hs] at htol

variable (setup host)

mutual
/-- What is bound after the steps for certain is bound after them. -/
theorem grants_walk (topLevel : Bool) : ∀ (steps : List EntryStep) (A B : Finset String),
    Definite steps A B → ∀ (path : Path) (index : ℕ) (last : Option TxMeta),
      Grants A (walkFrom setup host topLevel steps path index last) B
  | [], _, _, hsub, _, _, last => (grants_pure last).mono hsub
  | step :: rest, A, C, ⟨B, hs, hr⟩, path, index, last => by
    rw [walkFrom_cons]
    refine (grants_modify (.onTop (enterActivity_described index))).bind fun _ => ?_
    refine (grants_step step A B hs (path.step index step)).attempt_bind (fun txMeta => ?_)
      fun e => ?_
    · refine (grants_modify (.onTop (leaveActivity_described index))).bind fun _ => ?_
      exact grants_walk topLevel rest B C hr path (index + 1) txMeta
    · refine (grants_modify (.onTop (finishActivity_described _))).bind fun _ => ?_
      exact grants_throw

theorem grants_step : ∀ (step : EntryStep) (A B : Finset String), DefiniteStep step A B →
    ∀ here : Path, Grants A (runStep setup host step here) B
  | .setProp .., _, _, hsub, _ | .setPropRuntime .., _, _, hsub, _ | .readEcho .., _, _, hsub, _
  | .openChannel .., _, _, hsub, _ | .reopenSession .., _, _, hsub, _
  | .closeSession .., _, _, hsub, _ => grants_plain (grants_leaf (exchanges_plain rfl)) hsub
  | .getProp prop captures tolerant, _, _, ⟨hsub, ha⟩, _ =>
    grants_captured (grants_getProperty prop captures tolerant fun capture hmem hs =>
      (ha capture hmem hs).1) (fun capture hmem hs => (ha capture hmem hs).2)
      hsub
  | .sendOp op params captures count tolerant, A, B, ⟨hsub, ha⟩, here => by
    have hp : Exchanges setup host here (resolveParams setup here params : Exec τ _) :=
      exchanges_resolveParams params
    obtain ⟨n, hn⟩ : ∃ n, max count.toNat 1 = n + 1 := ⟨max count.toNat 1 - 1, by omega⟩
    refine grants_captured ((grants_leaf hp).bind fun resolved => ?_) ha hsub
    rw [hn]
    exact grants_sendOperation ha op resolved n none
  | .awaitUntil source condition onEach captures timeoutMs intervalMs tolerant, A, _,
      ⟨⟨C, ho⟩, hsub⟩, here => by
    have hr : Rules setup host (Secures A) := secures_rules
    have hl : Kept (Secures A here) (walkFrom setup host false onEach (here.into .onEach) 0 none) :=
      (grants_walk false onEach A C ho (here.into .onEach) 0 none).secures
    exact grants_plain (grants_of_secures (hr.awaitStep hl)) hsub
  | .retry steps fallback codes classes maxAttempts delayMs tolerant, A, B,
      ⟨⟨C, hst, hC⟩, hf, hto, _⟩, here => by
    refine grants_reportStep (grants_retryFrom setup ?_ ?_ _ _) hto
    · exact (grants_walk false steps A C hst _ 0 none).mono hC
    · intro hso
      obtain ⟨D, hD, hsub⟩ := hf (by simpa using hso)
      exact (grants_walk false fallback A D hD _ 0 none).mono hsub
  | .forEach collection slot body _, A, _, ⟨hbo, ⟨C, hb⟩, hsub⟩, _ =>
    grants_plain (grants_forEachStep setup host hbo fun _ =>
      (grants_walk false body A C hb _ 0 none).kept) hsub
  | .chunk total size offsetBind lengthBind body _, A, _, ⟨⟨C, hb⟩, hsub⟩, here => by
    have hr : Rules setup host (Secures A) := secures_rules
    have hl : ∀ index, Kept (Secures A here)
        (walkFrom setup host false body (here.into (.chunk index)) 0 none) := fun index =>
      (grants_walk false body A C hb (here.into (.chunk index)) 0 none).secures
    exact grants_plain (grants_of_secures (hr.chunkStep hl)) hsub
  | .ifThen slot equals thenSteps _, A, _, ⟨⟨C, ht, hC⟩, hsub⟩, _ =>
    grants_reportStep (grants_ifStep setup host
      ((grants_walk false thenSteps A C ht _ 0 none).mono hC) ((grants_pure none).mono hsub))
      (by simp [stepTolerant])
  | .ifElse slot equals thenSteps elseSteps _, A, _, ⟨⟨C, ht, hC⟩, D, he, hD⟩, _ =>
    grants_reportStep (grants_ifStep setup host
      ((grants_walk false thenSteps A C ht _ 0 none).mono hC)
      ((grants_walk false elseSteps A D he _ 0 none).mono hD)) (by simp [stepTolerant])
end

end Grants

/-! ### Lists that are accepted -/

section Accepted

variable {ownership : Option SessionOwnership}

theorem mapCapture_eq {capture : Capture} {info : CaptureInfo}
    (h : mapCapture capture = some info) :
    info.bind = capture.bind ∧ info.source = capture.source ∧
      (capture.fallback = none → info.fallback = none) := by
  unfold mapCapture at h
  split at h
  · cases h
    simp
  · obtain ⟨codes, -, h⟩ := bind_eq_some_iff.mp h
    cases h
    simp_all

variable {step : Config.Step} {stepPath : String} {A B : Finset String}

theorem binds_sub_arrayBinds {binds : Finset String} {infos : List CaptureInfo}
    (h : requireCapturesFrom ownership step stepPath step.captures ∅ = .ok binds)
    (hmap : step.captures.mapM mapCapture = some infos) :
    binds ⊆ arrayBinds infos ∧ ∀ info ∈ infos, info.source = .ptpU32Array →
      info.fallback = none ∧ step.tolerant = false := by
  obtain ⟨hd, hna⟩ := requireCapturesFrom_ok h
  obtain ⟨hfo, hba⟩ := exists_of_mapM hmap
  refine ⟨fun name hn => ?_, fun info hmem hs => ?_⟩
  · obtain hn | ⟨capture, hmem, hs, hb⟩ := hna name hn
    · simp at hn
    · obtain ⟨info, hi, hc⟩ := hfo capture hmem
      obtain ⟨hb', hs', -⟩ := mapCapture_eq hc
      exact mem_arrayBinds.mpr ⟨info, hi, hs'.trans hs, hb'.trans hb⟩
  · obtain ⟨capture, hc, hi⟩ := hba info hmem
    obtain ⟨-, hs', hf⟩ := mapCapture_eq hi
    have hcap := hd capture hc (hs'.symm.trans hs)
    exact ⟨hf hcap.fallback, hcap.tolerant⟩

section Lists

variable {step : Config.Step} {stepPath : String} {A B : Finset String}
  (h : requireStep ownership step stepPath A = .ok B)
  (hn : step.getProp = none ∧ step.sendOp = none)

include h hn

/-- A step that is neither a read nor an operation captures no collection; what
it binds, its lists bind. -/
theorem requireStep_lists : ∃ between,
    requireRetrySteps ownership step.tolerant step.retry stepPath A = .ok between ∧
    requireOnEach ownership step.awaitUntil stepPath between = .ok () ∧
    requireLoopSteps ownership step.loop stepPath between = .ok () ∧
    requireConditional ownership step.ifStep stepPath between = .ok B := by
  obtain ⟨-, binds, between, hc, hl⟩ := requireStep_ok h
  obtain ⟨hd, hna⟩ := requireCapturesFrom_ok hc
  have hb : binds = ∅ := by
    refine Finset.eq_empty_of_forall_notMem fun name hb => ?_
    obtain hb | ⟨capture, hmem, hso, -⟩ := hna name hb
    · simp at hb
    · have ha := (hd capture hmem hso).action
      simp [hn] at ha
  rw [hb, Finset.union_empty] at hl
  exact ⟨between, hl⟩

theorem requireStep_retry (hif : step.ifStep = none) :
    requireRetrySteps ownership step.tolerant step.retry stepPath A = .ok B ∧
      requireOnEach ownership step.awaitUntil stepPath B = .ok () ∧
      requireLoopSteps ownership step.loop stepPath B = .ok () := by
  obtain ⟨between, hr, ho, hl, ha⟩ := requireStep_lists h hn
  rw [hif] at ha
  cases ha
  exact ⟨hr, ho, hl⟩

omit hn in
theorem requireStep_plain
    (hn : step.getProp = none ∧ step.sendOp = none ∧ step.retry = none ∧ step.ifStep = none) :
    requireOnEach ownership step.awaitUntil stepPath A = .ok () ∧
      requireLoopSteps ownership step.loop stepPath A = .ok () ∧ B ⊆ A := by
  obtain ⟨hget, hs, hr, hif⟩ := hn
  obtain ⟨hb, ho, hl⟩ := requireStep_retry h ⟨hget, hs⟩ hif
  rw [hr] at hb
  cases hb
  exact ⟨ho, hl, subset_rfl⟩

theorem requireStep_if (hr : step.retry = none) :
    requireConditional ownership step.ifStep stepPath A = .ok B := by
  obtain ⟨between, hb, -, -, ha⟩ := requireStep_lists h hn
  rw [hr] at hb
  cases hb
  exact ha

end Lists

theorem requireFallbackSteps_ok {fallback : Option (List Config.Step)} {C : Finset String}
    (h : requireFallbackSteps ownership fallback stepPath A C = .ok B) :
    B ⊆ C ∧ ∀ steps ∈ fallback, ∃ D,
      requireStepsFrom ownership steps (stepPath ++ ".retry.fallback") 0 A = .ok D ∧ B ⊆ D := by
  cases fallback with
  | none =>
    cases h
    exact ⟨subset_rfl, by simp⟩
  | some steps =>
    obtain ⟨D, hst, h⟩ := bind_eq_ok_iff.mp h
    cases h
    refine ⟨Finset.inter_subset_left, fun steps' hs => ?_⟩
    cases hs
    exact ⟨D, hst, Finset.inter_subset_right⟩

theorem requireStep_captures {infos : List CaptureInfo}
    (h : requireStep ownership step stepPath A = .ok B)
    (hmap : step.captures.mapM mapCapture = some infos)
    (hn : step.retry = none ∧ step.ifStep = none) :
    B ⊆ A ∪ arrayBinds infos ∧ ∀ info ∈ infos, info.source = .ptpU32Array →
      info.fallback = none ∧ step.tolerant = false := by
  obtain ⟨-, binds, between, hc, hb, -, -, ha⟩ := requireStep_ok h
  obtain ⟨hsub, har⟩ := binds_sub_arrayBinds hc hmap
  rw [hn.1] at hb
  rw [hn.2] at ha
  cases hb
  cases ha
  exact ⟨Finset.union_subset_union_right hsub, har⟩

theorem mapSteps_cons {rest : List Config.Step} {plan : List EntryStep} :
    mapSteps (step :: rest) = some plan ↔ ∃ first, mapStep step = some first ∧
      ∃ others, mapSteps rest = some others ∧ first :: others = plan := by
  simp [mapSteps, bind_eq_some_iff]

mutual
theorem containsForEach_of_mapSteps : ∀ {steps : List Config.Step} {plan : List EntryStep},
    containsPtpLoop steps = false → mapSteps steps = some plan → containsForEach plan = false
  | [], plan, _, hmap => by
    obtain rfl : plan = [] := by simpa [mapSteps, eq_comm] using hmap
    rfl
  | step :: rest, plan, h, hmap => by
    obtain ⟨first, hf, others, ho, rfl⟩ := mapSteps_cons.mp hmap
    obtain ⟨hs, hr⟩ := Bool.or_eq_false_iff.mp h
    exact Bool.or_eq_false_iff.mpr ⟨stepContainsForEach_of_mapStep hs hf,
      containsForEach_of_mapSteps hr ho⟩
termination_by steps => sizeOf steps

theorem stepContainsForEach_of_mapStep {step : Config.Step} {plan : EntryStep}
    (h : stepContainsLoop step = false) (hmap : mapStep step = some plan) :
    stepContainsForEach plan = false := by
  unfold mapStep at hmap
  split at hmap
  case h_13 => cases hmap
  all_goals
    simp only [stepContainsLoop, Bool.or_eq_false_iff] at h
    obtain ⟨⟨⟨hl, hr⟩, ha⟩, hif⟩ := h
  case h_1 value _ _ _ _ _ _ _ _ _ _ =>
    obtain ⟨code, -, hmap⟩ := bind_eq_some_iff.mp hmap
    rcases value with _ | value | ⟨slot, ifMissing⟩
    all_goals cases hmap; rfl
  case h_5 | h_6 | h_7 => cases hmap; rfl
  case h_10 | h_11 => cases hl
  all_goals simp only [Option.bind_eq_bind, bind_eq_some_iff, ite_none_right_eq_some] at hmap
  case h_2 | h_3 | h_4 =>
    obtain ⟨code, -, infos, -, ⟨⟩⟩ := hmap
    rfl
  case h_8 =>
    obtain ⟨source, -, -, plan, hp, infos, -, ⟨⟩⟩ := hmap
    exact containsForEach_of_mapSteps ha hp
  case h_9 =>
    obtain ⟨hs, hfa⟩ := Bool.or_eq_false_iff.mp hr
    obtain ⟨plan, hp, others, ho, codes, -, ⟨⟩⟩ := hmap
    exact Bool.or_eq_false_iff.mpr ⟨containsForEach_of_mapSteps hs hp,
      containsForEach_of_mapFallback hfa ho⟩
  case h_12 =>
    obtain ⟨ht, he⟩ := Bool.or_eq_false_iff.mp hif
    obtain ⟨plan, hp, hmap⟩ := hmap
    have hf := containsForEach_of_mapSteps ht hp
    split at hmap
    · cases hmap
      exact hf
    · obtain ⟨others, ho, ⟨⟩⟩ := bind_eq_some_iff.mp hmap
      exact Bool.or_eq_false_iff.mpr ⟨hf, containsForEach_of_mapSteps he ho⟩
termination_by sizeOf step

theorem containsForEach_of_mapFallback {fallback : Option (List Config.Step)}
    {plan : List EntryStep}
    (h : fallbackContainsLoop fallback = false) (hmap : mapFallback fallback = some plan) :
    containsForEach plan = false := by
  cases fallback with
  | none => cases hmap; rfl
  | some steps => exact containsForEach_of_mapSteps h hmap
termination_by sizeOf fallback
end

theorem definiteStep_of_accepted {plan : EntryStep}
    (ih : ∀ steps path A B plan, sizeOf steps < sizeOf step →
      requireStepsFrom ownership steps path 0 A = .ok B → mapSteps steps = some plan →
        Definite plan A B) (h : requireStep ownership step stepPath A = .ok B)
    (hmap : mapStep step = some plan) : DefiniteStep plan A B := by
  have he := pairwise_of_countP (beq_iff_eq.mp (requireStep_ok h).1).le
  unfold mapStep at hmap
  split at hmap
  all_goals simp at he
  case h_13 => cases hmap
  case h_1 value _ _ _ _ _ _ _ _ _ _ =>
    obtain ⟨-, -, hsub⟩ := requireStep_plain h (by simp [he])
    obtain ⟨code, -, hmap⟩ := bind_eq_some_iff.mp hmap
    rcases value with _ | value | ⟨slot, ifMissing⟩
    all_goals cases hmap; exact hsub
  case h_5 | h_6 | h_7 =>
    cases hmap
    exact (requireStep_plain h (by simp [he])).2.2
  all_goals simp only [Option.bind_eq_bind, bind_eq_some_iff, ite_none_right_eq_some] at hmap
  case h_2 =>
    obtain ⟨code, -, infos, hi, ⟨⟩⟩ := hmap
    exact requireStep_captures h hi (by simp [he])
  case h_3 =>
    obtain ⟨code, -, infos, hi, ⟨⟩⟩ := hmap
    exact (requireStep_plain h (by simp [he])).2.2
  case h_4 =>
    obtain ⟨code, -, infos, hi, ⟨⟩⟩ := hmap
    obtain ⟨hsub, ha⟩ := requireStep_captures h hi (by simp [he])
    exact ⟨hsub, fun info hmem hso => (ha info hmem hso).2⟩
  case h_8 =>
    obtain ⟨hoe, -, hsub⟩ := requireStep_plain h (by simp [he])
    obtain ⟨C, hs, -⟩ := bind_eq_ok_iff.mp hoe
    obtain ⟨source, -, -, plan, hp, infos, -, ⟨⟩⟩ := hmap
    exact ⟨⟨C, ih _ _ A C plan (by decreasing_tactic) hs hp⟩, hsub⟩
  case h_9 steps fallback _ _ _ _ _ _ _ _ _ _ _ _ _ _ =>
    have hr := (requireStep_retry h (by simp [he]) (by simp [he])).1
    obtain ⟨_, hsh, hr⟩ := bind_eq_ok_iff.mp hr
    obtain ⟨hlo, hlo'⟩ := requireRetryShape_ok hsh
    obtain ⟨C, hs, hr⟩ := bind_eq_ok_iff.mp hr
    obtain ⟨D, hf, ht⟩ := bind_eq_ok_iff.mp hr
    obtain ⟨hb, ⟨⟩⟩ := Fallible.guard_eq_ok_iff.mp ht
    obtain ⟨hsub, hla⟩ := requireFallbackSteps_ok hf
    obtain ⟨plan, hp, others, ho, codes, -, ⟨⟩⟩ := hmap
    refine ⟨⟨C, ih steps _ A C plan (by decreasing_tactic) hs hp, hsub⟩, fun hne => ?_,
      fun htol => ?_, containsForEach_of_mapSteps hlo hp,
      containsForEach_of_mapFallback hlo' ho⟩
    · cases fallback with
      | none => cases ho; exact absurd rfl hne
      | some steps' =>
        obtain ⟨D, hs', hD⟩ := hla steps' rfl
        exact ⟨D, ih steps' _ A D others (by decreasing_tactic) hs' ho, hD⟩
    · simp [htol] at hb
      exact hb.subset
  case h_10 =>
    obtain ⟨-, hl, hsub⟩ := requireStep_plain h (by simp [he])
    obtain ⟨hb, hl⟩ := Fallible.guard_eq_ok_iff.mp hl
    obtain ⟨C, hs, -⟩ := bind_eq_ok_iff.mp hl
    obtain ⟨plan, hp, ⟨⟩⟩ := hmap
    exact ⟨not_not.mp hb, ⟨C, ih _ _ A C plan (by decreasing_tactic) hs hp⟩, hsub⟩
  case h_11 =>
    obtain ⟨-, hl, hsub⟩ := requireStep_plain h (by simp [he])
    obtain ⟨C, hs, -⟩ := bind_eq_ok_iff.mp hl
    obtain ⟨plan, hp, ⟨⟩⟩ := hmap
    exact ⟨⟨C, ih _ _ A C plan (by decreasing_tactic) hs hp⟩, hsub⟩
  case h_12 =>
    have hif := requireStep_if h (by simp [he]) (by simp [he])
    obtain ⟨C, hth, hif⟩ := bind_eq_ok_iff.mp hif
    obtain ⟨D, hel, ⟨⟩⟩ := bind_eq_ok_iff.mp hif
    obtain ⟨plan, hp, hmap⟩ := hmap
    have hd : ∃ E, Definite plan A E ∧ C ∩ D ⊆ E :=
      ⟨C, ih _ _ A C plan (by decreasing_tactic) hth hp, Finset.inter_subset_left⟩
    split at hmap
    case isTrue hem =>
      cases hmap
      rw [isEmpty_iff.mp hem] at hel
      cases hel
      exact ⟨hd, Finset.inter_subset_right⟩
    case isFalse =>
      obtain ⟨others, ho, ⟨⟩⟩ := bind_eq_some_iff.mp hmap
      exact ⟨hd, D, ih _ _ A D others (by decreasing_tactic) hel ho, Finset.inter_subset_right⟩

theorem definite_of_accepted : ∀ (steps : List Config.Step) (path : String) (index : ℕ)
    (A B : Finset String) (plan : List EntryStep),
    requireStepsFrom ownership steps path index A = .ok B → mapSteps steps = some plan →
      Definite plan A B
  | [], _, _, A, B, plan, h, hmap => by
    cases h
    obtain rfl : plan = [] := by simpa [mapSteps, eq_comm] using hmap
    exact subset_rfl
  | step :: rest, path, index, A, C, plan, h, hmap => by
    obtain ⟨B, hs, hr⟩ := bind_eq_ok_iff.mp h
    obtain ⟨first, hf, others, ho, rfl⟩ := mapSteps_cons.mp hmap
    exact ⟨B, definiteStep_of_accepted (fun steps path A B plan _ =>
        definite_of_accepted steps path 0 A B plan) hs hf,
      definite_of_accepted rest path (index + 1) B C others hr ho⟩
termination_by steps => sizeOf steps

end Accepted

/-! ### Whole runs -/

theorem mem_of_pending {setup : Setup} {e : StepError} : ∀ {events : List Event} {w w' : Watch},
    Follows (Watch.moves setup) w events w' → w'.pending = some e →
      w.pending = some e ∨ .failed e ∈ events
  | [], w, w', h, hend => by
    cases h
    exact .inl hend
  | event :: events, w, w', h, hend => by
    obtain ⟨w₁, hm, hr⟩ := h
    rcases mem_of_pending hr hend with hp | hmem
    · cases event with
      | failed e' =>
        obtain ⟨-, -, rfl⟩ := hm
        cases hp
        exact .inr (mem_cons_self ..)
      | request r answer =>
        obtain ⟨-, -, rfl⟩ := hm
        cases hp
      | resumed step here e' =>
        obtain ⟨-, -, rfl⟩ := hm
        cases hp
      | output o answer =>
        obtain ⟨-, -, rfl⟩ := hm
        cases hp
      | _ =>
        obtain ⟨-, rfl⟩ := hm
        exact .inl hp
    · exact .inr (mem_cons_of_mem _ hmem)

theorem run_grown {τ : Type} (setup : Setup) (host : Host τ) {plan : List EntryStep}
    {B : Finset String} (h : Definite plan ∅ B) (t : τ) :
    Grown (.initial setup t) (runSteps setup host plan t).2 := by
  have hw := (grants_walk setup host true plan ∅ B h topPath 0 none (.initial setup t)
    fun name hn => absurd hn (Finset.notMem_empty name)).1
  rcases runSteps_cases setup host plan t with ⟨e, h⟩ | ⟨h, -⟩
  · rw [h]
    exact .refl _
  · exact hw.trans (.of_described h)

/-- In a run of a list that the loader accepts, no loop finds its collection
unbound. -/
theorem accepted_loops_find_collection {τ : Type} (setup : Setup) (host : Host τ)
    (steps : List Config.Step) (path : String) (ownership : Option SessionOwnership)
    (plan : List EntryStep) (haccept : requireValidPtpSteps steps path ownership = .ok ())
    (hmap : mapSteps steps = some plan) (t : τ) :
    ∀ e, .failed e ∈ (runSteps setup host plan t).2.trace ∨
      (runSteps setup host plan t).1 = .failed e →
        ∀ collection, e.detail ≠ .collectionUnbound collection := by
  obtain ⟨B, hs, -⟩ := bind_eq_ok_iff.mp haccept
  have hd := definite_of_accepted steps path 0 ∅ B plan hs hmap
  obtain ⟨-, added, ht, hb⟩ := run_grown setup host hd t
  rintro e he collection hde
  have hmem : .failed e ∈ (runSteps setup host plan t).2.trace := by
    rcases he with hmem | hend
    · exact hmem
    · obtain ⟨last, hf⟩ := run_watched setup host plan t
      exact (mem_of_pending hf (by simp [hend, RunEnd.error])).resolve_left (by simp)
  have hfo := hb e (by simpa [ht, PtpCtx.initial] using hmem)
  simp [hde, Detail.isUnbound] at hfo

/-- Objects are listed, again while the camera is busy, and each one is looked
at; that one of them has gone is tolerated. -/
def listingSteps : List Config.Step :=
  [{ retry := some
      { steps := [{ sendOp := some "0x1007", captures := [⟨"handles", .ptpU32Array, none⟩] }]
        whenResponseCodes := ["0x2019"], maxAttempts := 2 } },
    { loop := some (.forEach "handles" "handle"
        [{ sendOp := some "0x1008", params := [.runtime "handle" 0 none], tolerant := true }]) }]

def listingPlan : List EntryStep :=
  [.retry [.sendOp 0x1007 [] [⟨"handles", .ptpU32Array, none⟩] 1 false] [] [0x2019] [] 2 0 false,
    .forEach "handles" "handle" [.sendOp 0x1008 [.runtime "handle" 0 none] [] 1 true] false]

theorem accepted_loops_find_collection_listing :
    requireValidPtpSteps listingSteps "entry" none = .ok () ∧
      mapSteps listingSteps = some listingPlan ∧
      ∀ e, .failed e ∈ (runSteps plainSetup (busyHost 1) listingPlan 0).2.trace ∨
        (runSteps plainSetup (busyHost 1) listingPlan 0).1 = .failed e →
          ∀ collection, e.detail ≠ .collectionUnbound collection := by
  have ha : requireValidPtpSteps listingSteps "entry" none = .ok () := by rfl
  have hmap : mapSteps listingSteps = some listingPlan := by rfl
  exact ⟨ha, hmap, accepted_loops_find_collection plainSetup (busyHost 1) listingSteps "entry"
    none listingPlan ha hmap 0⟩

end Ptpsim.Executor
