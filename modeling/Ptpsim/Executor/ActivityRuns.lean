/-
# The activities of a run

Between the top-level steps of a plan the executor starts and ends activities;
inside a step it may only say that the one under way goes on with another
attempt. If the loader has accepted the activities, so that their spans follow
one another and cover the steps, they go by one after the other, each from its
start to exactly one end. The order is that of an automaton (`Agenda.moves`)
that has the activities still to come and the one under way. Steps leave its
state as it is (`Within`), so that only the top level has to be followed.
-/
import Ptpsim.Executor.Walks

namespace Ptpsim.Executor

open Ptpsim.Core Config List
open Interrupt hiding Exec

/-! ### The automaton -/

abbrev ActivityKey := String × UInt32

/-- The name that an activity is reported under. -/
def activityKey (d : ActivityDescriptor) : ActivityKey := (d.id, d.version)

/-- The activities to come, and the one under way. -/
structure Agenda where
  rest : List ActivityDescriptor
  active : Option ActivityDescriptor

def Agenda.key (p : Agenda) : Option ActivityKey := p.active.map activityKey

def Agenda.moves (p : Agenda) (event : Event) (p' : Agenda) : Prop :=
  match event with
  | .activity (.started id version) =>
    p.active = none ∧ ∃ d rest, p.rest = d :: rest ∧ activityKey d = (id, version) ∧
      p' = ⟨rest, some d⟩
  | .activity (.retrying id version _) => p.key = some (id, version) ∧ p' = p
  | .activity (.succeeded id version _) | .activity (.failed id version _ _)
  | .activity (.cancelled id version _) => p.key = some (id, version) ∧ p' = ⟨p.rest, none⟩
  | .report r => r.activity = p.key ∧ p' = p
  | _ => p' = p

def PtpCtx.descriptor {τ : Type} (c : PtpCtx τ) : Option ActivityDescriptor :=
  c.activeActivity.map (·.descriptor)

theorem activityCorrelation_eq {τ : Type} (c : PtpCtx τ) :
    c.activityCorrelation = c.descriptor.map activityKey := by
  cases h : c.activeActivity <;> simp [PtpCtx.activityCorrelation, PtpCtx.descriptor, h,
    activityKey]

/-! ### Inside a step -/

/-- The activity under way stays the same one, and what is said is about
it. -/
structure Within {τ : Type} (c c' : PtpCtx τ) : Prop where
  same : c'.descriptor = c.descriptor
  traced : ∃ added, c'.trace = c.trace ++ added ∧ ∀ event ∈ added, ∀ p : Agenda,
    p.active = c.descriptor → p.moves event p

/-- As a relation that a walk may keep. -/
abbrev Remains {τ : Type} (_ : Path) (c : PtpCtx τ) (_ : Stopped) (c' : PtpCtx τ) : Prop :=
  Within c c'

section Inside

variable {τ : Type} {setup : Setup} {host : Host τ} {here : Path}

theorem Within.append {c c₁ c₂ : PtpCtx τ} (h : Within c c₁)
    (hs : c₂.descriptor = c₁.descriptor) (added : List Event)
    (ht : c₂.trace = c₁.trace ++ added)
    (hadded : ∀ event ∈ added, ∀ p : Agenda, p.active = c₁.descriptor → p.moves event p) :
    Within c c₂ := by
  obtain ⟨hs₁, events, he, hm⟩ := h
  refine ⟨hs.trans hs₁, events ++ added, by rw [ht, he, append_assoc], ?_⟩
  intro event hmem p hp
  rcases mem_append.mp hmem with hmem | hmem
  · exact hm event hmem p hp
  · exact hadded event hmem p (by rw [hs₁, hp])

theorem Within.silent {c c₁ c₂ : PtpCtx τ} (h : Within c c₁)
    (ha : c₂.activeActivity = c₁.activeActivity) (added : List Event)
    (ht : c₂.trace = c₁.trace ++ added)
    (hs : ∀ event ∈ added, ∀ p : Agenda, p.moves event p) : Within c c₂ :=
  h.append (by rw [PtpCtx.descriptor, ha, PtpCtx.descriptor]) added ht
    fun event hmem p _ => hs event hmem p

theorem within_refl (c : PtpCtx τ) : Within c c := ⟨rfl, [], by simp, by simp⟩

theorem within_composes : Composes (Remains here : PtpCtx τ → Stopped → PtpCtx τ → Prop) where
  refl c := within_refl c
  trans h h' := by
    obtain ⟨hs, added, ht, hm⟩ := h'
    exact h.append hs added ht hm

theorem exchange_unnoticed {event : Event} (h : event.IsExchange here) (p : Agenda) :
    p.moves event p := by
  cases event <;> simp_all [Event.IsExchange, Agenda.moves]

theorem within_rules : Rules setup host Remains where
  composes here := within_composes
  inside _ h := h
  exchanged {here c c' e} h := by
    obtain ⟨added, ht, he, -⟩ := h.traced
    exact (within_refl c).silent h.active added ht fun event hmem =>
      exchange_unnoticed (he event hmem)
  rescoped h hs := h.silent hs.active [] (by simp [hs.trace]) (by simp)
  late h := h
  outer h := h
  halted := within_refl _

theorem retryActivity_within (number limit : ℕ) (err : StepError) (c : PtpCtx τ) :
    Within c (c.retryActivity number limit err) := by
  unfold PtpCtx.retryActivity
  cases h : c.activeActivity with
  | none => exact within_refl c
  | some a =>
    refine ⟨by simp [PtpCtx.descriptor, h], [_], rfl, ?_⟩
    intro event hmem p hp
    rw [mem_singleton.mp hmem]
    have hp' : p.active = some a.descriptor := by rw [hp, PtpCtx.descriptor, h]; rfl
    exact ⟨by simp [Agenda.key, hp', activityKey], rfl⟩

theorem report_moves {r : StepReport} {c : PtpCtx τ} {p : Agenda}
    (hr : r.activity = c.activityCorrelation) (hp : p.active = c.descriptor) :
    p.moves (.report r) p :=
  ⟨by rw [hr, activityCorrelation_eq, Agenda.key, hp], rfl⟩

theorem within_emit (c : PtpCtx τ) {event : Event} (h : ∀ p : Agenda, p.moves event p) :
    Within c (c.record event) :=
  (within_refl c).silent rfl [event] rfl (by simpa using h)

theorem within_flatRules : FlatRules setup host Remains where
  toRules := within_rules
  regardless h := h
  reset ht ha _ := (within_refl _).silent ha [] (by simp [ht]) (by simp)
  announced := retryActivity_within
  attempted _ c := within_emit c fun _ => rfl
  resumed _ _ c := within_emit c fun _ => rfl
  started step c := by
    refine (within_refl c).append rfl [_] rfl fun event hmem p hp => ?_
    rw [mem_singleton.mp hmem]
    exact report_moves rfl hp
  ended {here step attempts r c c₁} hr h := by
    obtain ⟨outcome, error, txMeta, -, rfl⟩ := hr
    refine h.append rfl [_] rfl fun event hmem p hp => ?_
    rw [mem_singleton.mp hmem]
    exact report_moves rfl (hp.trans h.same)

theorem within_walkRules : WalkRules setup host Remains fun _ => True := by
  refine within_flatRules.walkRules (fun {here c c₁ e event} he h => ?_) fun {here c} _ _ => ?_
  · refine h.silent rfl [event] rfl ?_
    cases event <;> simp_all [Event.IsElement, Agenda.moves]
  · exact within_emit c fun _ => rfl

end Inside

/-! ### Spans -/

/-- The spans begin before the step with the number. -/
def BeginBefore (index : ℕ) (d : ActivityDescriptor) : Prop :=
  ∃ startStep endStepExclusive : UInt32,
    d.binding = .executorSpan .steps startStep endStepExclusive ∧ startStep.toNat < index

variable {index : ℕ} {activities : List ActivityDescriptor} {events : List Event}

theorem startsAt_iff {d : ActivityDescriptor} {startStep endStepExclusive : UInt32}
    (hb : d.binding = .executorSpan .steps startStep endStepExclusive)
    (hi : index < 2 ^ 32) :
    ActivityDescriptor.startsAt d (UInt32.ofNat index) = true ↔ startStep.toNat = index := by
  have ht : (UInt32.ofNat index).toNat = index := by
    rw [UInt32.toNat_ofNat', Nat.mod_eq_of_lt hi]
  simp only [ActivityDescriptor.startsAt, hb, decide_eq_true_eq]
  constructor
  · rintro rfl
    exact ht
  · intro h
    exact UInt32.toNat_inj.mp (h.trans ht.symm)

theorem find_of_beginBefore (h : ∀ d ∈ activities, BeginBefore index d) (hi : index < 2 ^ 32) :
    activities.find? (fun d => ActivityDescriptor.startsAt d (UInt32.ofNat index)) = none := by
  rw [List.find?_eq_none]
  intro d hmem hs
  obtain ⟨startStep, endStepExclusive, hb, hlt⟩ := h d hmem
  have heq := (startsAt_iff hb hi).mp hs
  omega

theorem find_of_partitions (hi : index < 2 ^ 32) :
    ∀ {activities : List ActivityDescriptor} {next last : ℕ}, Partitions activities next last →
      index < next →
      activities.find? (fun d => ActivityDescriptor.startsAt d (UInt32.ofNat index)) = none
  | [], _, _, _, _ => rfl
  | d :: rest, next, last, ⟨startStep, endStepExclusive, hb, hs, hlt, hr⟩, hbe => by
    have hlt' : startStep.toNat < endStepExclusive.toNat := hlt
    have hno : ¬ ActivityDescriptor.startsAt d (UInt32.ofNat index) = true := fun h => by
      have heq := (startsAt_iff hb hi).mp h
      omega
    have hl := find_of_partitions hi hr (by omega)
    rw [List.find?_cons, hl]
    simp [hno]

/-! ### The top level -/

/-- Before the step with the number: the next span begins at it, unless one is
under way. A plan without activities is ready at every step. -/
def Ready (activities : List ActivityDescriptor) (stepCount : ℕ) (p : Agenda) (index : ℕ) : Prop :=
  (activities = [] ∧ p = ⟨[], none⟩) ∨ ∃ done next, activities = done ++ p.rest ∧
    (∀ d ∈ done, BeginBefore index d) ∧ Partitions p.rest next stepCount ∧ next < 2 ^ 32 ∧
    (p.active = none → next = index) ∧
    ∀ d, p.active = some d → index < next ∧ ∃ startStep endStepExclusive : UInt32,
      d.binding = .executorSpan .steps startStep endStepExclusive ∧ endStepExclusive.toNat = next

/-- During the step with the number: a span is under way that goes on at least
to the end of it. -/
def Running (activities : List ActivityDescriptor) (stepCount : ℕ) (p : Agenda)
    (index : ℕ) : Prop :=
  (activities = [] ∧ p = ⟨[], none⟩) ∨ ∃ done next d, activities = done ++ p.rest ∧
    (∀ d ∈ done, BeginBefore (index + 1) d) ∧ Partitions p.rest next stepCount ∧ next < 2 ^ 32 ∧
    p.active = some d ∧ index < next ∧ ∃ startStep endStepExclusive : UInt32,
      d.binding = .executorSpan .steps startStep endStepExclusive ∧ endStepExclusive.toNat = next

/-- The agenda has been followed from one context to the other. -/
def Followed {τ : Type} (p : Agenda) (c : PtpCtx τ) (p' : Agenda) (c' : PtpCtx τ) : Prop :=
  p'.active = c'.descriptor ∧ ∃ added, c'.trace = c.trace ++ added ∧ Follows Agenda.moves p added p'

section Top

variable {τ : Type} {setup : Setup} {host : Host τ} {c : PtpCtx τ} {p : Agenda} {stepCount : ℕ}

theorem Followed.trans {p₁ p₂ : Agenda} {c₁ c₂ : PtpCtx τ} (h : Followed p c p₁ c₁)
    (h' : Followed p₁ c₁ p₂ c₂) : Followed p c p₂ c₂ := by
  obtain ⟨-, added, ht, hf⟩ := h
  obtain ⟨ha, added', ht', hf'⟩ := h'
  exact ⟨ha, added ++ added', by rw [ht', ht, append_assoc], follows_append.mpr ⟨_, hf, hf'⟩⟩

theorem Within.followed {c' : PtpCtx τ} (hp : p.active = c.descriptor) (h : Within c c') :
    Followed p c p c' := by
  obtain ⟨hs, added, ht, hm⟩ := h
  exact ⟨hp.trans hs.symm, added, ht, follows_same fun event hmem => hm event hmem p hp⟩

theorem finishActivity_followed
    {terminal : ActiveActivity → ActivityEvent}
    (ht : ∀ a, p.key = some (activityKey a.descriptor) →
      p.moves (.activity (terminal a)) ⟨p.rest, none⟩)
    (hp : p.active = c.descriptor) : Followed p c ⟨p.rest, none⟩ (c.finishActivity terminal) := by
  unfold PtpCtx.finishActivity
  cases ha : c.activeActivity with
  | none =>
    have hn : p.active = none := by rw [hp, PtpCtx.descriptor, ha]; rfl
    refine ⟨by simp [PtpCtx.descriptor, ha], [], by simp, ?_⟩
    cases p
    cases hn
    rfl
  | some a =>
    have hkey : p.key = some (activityKey a.descriptor) := by
      rw [Agenda.key, hp, PtpCtx.descriptor, ha]
      rfl
    exact ⟨rfl, [.activity (terminal a)], rfl, follows_singleton.mpr (ht a hkey)⟩

theorem finishActivitySuccess_followed (hp : p.active = c.descriptor) :
    Followed p c ⟨p.rest, none⟩ c.finishActivitySuccess :=
  finishActivity_followed (fun _ hkey => ⟨hkey, rfl⟩) hp

theorem finishActivityFailure_followed (e : StepError) (hp : p.active = c.descriptor) :
    Followed p c ⟨p.rest, none⟩ (c.finishActivityFailure e) :=
  finishActivity_followed (fun _ hkey => ⟨hkey, rfl⟩) hp

theorem cancelActivity_followed (hp : p.active = c.descriptor) :
    Followed p c ⟨p.rest, none⟩ c.cancelActivity :=
  finishActivity_followed (fun _ hkey => ⟨hkey, rfl⟩) hp

theorem startActivity_followed {d : ActivityDescriptor} {rest : List ActivityDescriptor}
    (hp : p.active = c.descriptor) (hr : p.rest = d :: rest) :
    Followed p c ⟨rest, some d⟩ (c.startActivity d) := by
  refine (finishActivitySuccess_followed hp).trans
    ⟨rfl, [.activity (.started d.id d.version)], rfl, follows_singleton.mpr ?_⟩
  exact ⟨rfl, d, rest, hr, rfl, rfl⟩

theorem enterActivity_followed {index : ℕ} (hp : p.active = c.descriptor)
    (hin : index < stepCount) (h : Ready setup.activities stepCount p index) :
    ∃ p', Followed p c p' (enterActivity setup index c) ∧
      Running setup.activities stepCount p' index := by
  rcases h with ⟨he, rfl⟩ | ⟨done, next, ha, hd, ht, hn, hi, hbu⟩
  · refine ⟨⟨[], none⟩, ?_, .inl ⟨he, rfl⟩⟩
    have hno : activityForStart setup index = none := by simp [activityForStart, he]
    rw [enterActivity, hno]
    exact ⟨hp, [], by simp, rfl⟩
  · cases hac : p.active with
    | none =>
      obtain rfl := hi hac
      cases hr : p.rest with
      | nil =>
        rw [hr] at ht
        exact absurd ht (by simp [Partitions]; omega)
      | cons d rest =>
        rw [hr] at ht
        obtain ⟨startStep, endStepExclusive, hbi, hst, hlt, ht'⟩ := ht
        have hlt' : startStep.toNat < endStepExclusive.toNat := hlt
        have hf : activityForStart setup next = some d := by
          rw [activityForStart, ha, List.find?_append, find_of_beginBefore hd hn, hr,
            List.find?_cons, (startsAt_iff hbi hn).mpr hst]
          rfl
        rw [enterActivity, hf]
        refine ⟨⟨rest, some d⟩, startActivity_followed hp hr, .inr ⟨done ++ [d],
          endStepExclusive.toNat, d, by rw [ha, hr]; simp, ?_, ht',
          endStepExclusive.toNat_lt, rfl, by omega, startStep, endStepExclusive, hbi, rfl⟩⟩
        intro x hx
        rcases mem_append.mp hx with hx | hx
        · obtain ⟨s, e, hb, hlt⟩ := hd x hx
          exact ⟨s, e, hb, by omega⟩
        · rw [mem_singleton.mp hx]
          exact ⟨startStep, endStepExclusive, hbi, by omega⟩
    | some d =>
      obtain ⟨hbe, hs⟩ := hbu d hac
      have hno : activityForStart setup index = none := by
        rw [activityForStart, ha, List.find?_append,
          find_of_beginBefore hd (by omega), find_of_partitions (by omega) ht hbe]
        rfl
      rw [enterActivity, hno]
      refine ⟨p, ⟨hp, [], by simp, rfl⟩, .inr ⟨done, next, d, ha, ?_, ht, hn, hac, hbe, hs⟩⟩
      intro x hx
      obtain ⟨s, e, hb, hlt⟩ := hd x hx
      exact ⟨s, e, hb, by omega⟩

theorem endsAfter_iff {d : ActivityDescriptor} {startStep endStepExclusive : UInt32} {index : ℕ}
    (hb : d.binding = .executorSpan .steps startStep endStepExclusive)
    (hi : index + 1 < 2 ^ 32) :
    ActivityDescriptor.endsAfter d (UInt32.ofNat index) = true ↔
      endStepExclusive.toNat = index + 1 := by
  have ht : (UInt32.ofNat index + 1).toNat = index + 1 := by
    have hone : (1 : UInt32).toNat = 1 := rfl
    rw [UInt32.toNat_add, UInt32.toNat_ofNat', hone]
    omega
  simp only [ActivityDescriptor.endsAfter, hb, decide_eq_true_eq]
  constructor
  · rintro rfl
    exact ht
  · intro h
    exact UInt32.toNat_inj.mp (h.trans ht.symm)

theorem leaveActivity_followed {activities : List ActivityDescriptor} {index : ℕ}
    (hp : p.active = c.descriptor) (h : Running activities stepCount p index) :
    ∃ p', Followed p c p' (leaveActivity index c) ∧ Ready activities stepCount p' (index + 1) := by
  rcases h with ⟨hem, rfl⟩ | ⟨done, next, d, hact, hd, ht, hn, hac, hbe,
    startStep, endStepExclusive, hb, hend⟩
  · have hno : c.activeActivity = none := by
      cases ha : c.activeActivity with
      | none => rfl
      | some a => simp [PtpCtx.descriptor, ha] at hp
    have hl : leaveActivity index c = c := by simp [leaveActivity, hno]
    rw [hl]
    exact ⟨⟨[], none⟩, ⟨hp, [], by simp, rfl⟩, .inl ⟨hem, rfl⟩⟩
  · have he : (c.activeActivity.any fun a =>
        ActivityDescriptor.endsAfter a.descriptor (UInt32.ofNat index)) = true ↔
          next = index + 1 := by
      rw [hac] at hp
      cases ha : c.activeActivity with
      | none => simp [PtpCtx.descriptor, ha] at hp
      | some a =>
        simp only [PtpCtx.descriptor, ha, Option.map_some, Option.some.injEq] at hp
        rw [Option.any_some, ← hp, endsAfter_iff hb (by omega), hend]
    unfold leaveActivity
    split
    case isTrue ho =>
      have hn' := he.mp ho
      refine ⟨⟨p.rest, none⟩, finishActivitySuccess_followed hp, .inr ⟨done, next, hact, hd,
        ht, hn, fun _ => hn', ?_⟩⟩
      simp
    case isFalse hg =>
      have hn' : next ≠ index + 1 := fun h => hg (he.mpr h)
      refine ⟨p, ⟨hp, [], by simp, rfl⟩, .inr ⟨done, next, hact, hd, ht, hn, ?_, ?_⟩⟩
      · simp [hac]
      · intro d' hd'
        rw [hac] at hd'
        cases hd'
        exact ⟨by omega, startStep, endStepExclusive, hb, hend⟩

theorem agenda_walk : ∀ (steps : List EntryStep) (index : ℕ) (last : Option TxMeta)
    (p : Agenda) (c : PtpCtx τ), index + steps.length = stepCount → p.active = c.descriptor →
    Ready setup.activities stepCount p index →
    ∃ p', Followed p c p' (final (walkFrom setup host true steps topPath index last c))
  | [], index, last, p, c, _, hp, _ =>
    ⟨p, hp, [], by simp [walkFrom, final, pure, EStateM.pure], rfl⟩
  | step :: rest, index, last, p, c, hc, hp, hre => by
    have hle : index + (rest.length + 1) = stepCount := by simpa using hc
    obtain ⟨p₁, he, hru⟩ := enterActivity_followed hp (by omega) hre
    have hrun : Kept (Remains topPath) (runStep setup host step (topPath.step index step)) :=
      within_walkRules.step step trivial (everyInside_trivial step) _
    have hs := (hrun (enterActivity setup index c)).followed he.1
    have hm : (modify (onTop true (enterActivity setup index)) : Exec τ PUnit) c =
        .ok () (enterActivity setup index c) := rfl
    rw [walkFrom_cons, bind_ok hm]
    refine attempt_bind_cases (P := fun r => ∃ p', Followed p c p' (final r)) (fun m c₁ hr => ?_)
      (fun e c₁ hr => ?_) fun e c₁ hr _ => ?_
    all_goals rw [hr] at hs
    · obtain ⟨p₂, hl, hre'⟩ := leaveActivity_followed hs.1 hru
      obtain ⟨p₃, hres⟩ := agenda_walk rest (index + 1) m p₂ (leaveActivity index c₁) (by omega)
        hl.1 hre'
      exact ⟨p₃, ((he.trans hs).trans hl).trans hres⟩
    · exact ⟨_, (he.trans hs).trans (finishActivityFailure_followed e hs.1)⟩
    · exact ⟨_, he.trans hs⟩

end Top

/-! ### The whole run -/

section Run

variable {τ : Type} {setup : Setup} (host : Host τ) {steps : List EntryStep} {path : String}

/-- The run follows its agenda, and at the end no activity is under way. -/
theorem run_agenda (h : requireValidExecutorActivities setup.activities steps.length path = .ok ())
    (t : τ) : ∃ p, Follows Agenda.moves ⟨setup.activities, none⟩
      (runSteps setup host steps t).2.trace p ∧
      ((runSteps setup host steps t).1 ≠ .pending → p.active = none) := by
  have hre : Ready setup.activities steps.length ⟨setup.activities, none⟩ 0 := by
    rcases requireValidExecutorActivities_partitions h with he | ht
    · exact .inl ⟨he, by rw [he]⟩
    · exact .inr ⟨[], 0, rfl, by simp, ht, by omega, fun _ => rfl, by simp⟩
  obtain ⟨p, hw⟩ : ∃ p, Followed ⟨setup.activities, none⟩ (.initial setup t) p
      (final (walkFrom setup host true steps topPath 0 none (.initial setup t))) :=
    agenda_walk steps 0 none ⟨setup.activities, none⟩ (.initial setup t) (by omega) rfl hre
  have hf : ∀ {p' : Agenda} {c : PtpCtx τ},
      Followed ⟨setup.activities, none⟩ (.initial setup t) p' c →
        Follows Agenda.moves ⟨setup.activities, none⟩ c.trace p' := by
    rintro p' c ⟨-, added, htr, hfo⟩
    rw [htr]
    exact hfo
  unfold runSteps
  cases preflight setup steps with
  | error e => exact ⟨_, rfl, fun _ => rfl⟩
  | ok _ =>
    rcases hr : walkFrom setup host true steps topPath 0 none (.initial setup t) with
      ⟨m, c⟩ | ⟨e | ⟨level, clock⟩ | _ | _, c⟩
    all_goals rw [hr] at hw
    case ok => exact ⟨_, hf (hw.trans (finishActivitySuccess_followed hw.1)), fun _ => rfl⟩
    case error.halted.false => exact ⟨_, hf hw, fun hp => absurd rfl hp⟩
    all_goals exact ⟨_, hf (hw.trans (cancelActivity_followed hw.1)), fun _ => rfl⟩

end Run

/-! ### Reading the trace -/

/-- The activities that have started, in order. -/
def beginnings (events : List Event) : List ActivityKey :=
  events.filterMap fun event =>
    match event with
    | .activity (.started id version) => some (id, version)
    | _ => none

/-- The activities that have come to an end, in order. -/
def endings (events : List Event) : List ActivityKey :=
  events.filterMap fun event =>
    match event with
    | .activity (.succeeded id version _) | .activity (.failed id version _ _)
    | .activity (.cancelled id version _) => some (id, version)
    | _ => none

theorem beginnings_append (a b : List Event) : beginnings (a ++ b) = beginnings a ++ beginnings b :=
  filterMap_append

theorem endings_append (a b : List Event) : endings (a ++ b) = endings a ++ endings b :=
  filterMap_append

/-- The activity under way: it has started and not ended. -/
def underWay (events : List Event) : Option ActivityKey :=
  (beginnings events)[(endings events).length]?

/-- What the agenda has left is what has not started, and what is under way is
what has not ended. -/
structure Told (activities : List ActivityDescriptor) (events : List Event) (p : Agenda) :
    Prop where
  order : activities.map activityKey = beginnings events ++ p.rest.map activityKey
  open_ : beginnings events = endings events ++ p.key.toList

theorem Told.underWay {p : Agenda} (h : Told activities events p) : underWay events = p.key := by
  rw [Executor.underWay, h.open_]
  cases p.key <;> simp

theorem Told.event {p p' : Agenda} {event : Event} (h : Told activities events p)
    (hm : p.moves event p') :
    Told activities (events ++ [event]) p' := by
  obtain ⟨hor, ho⟩ := h
  have hs : p' = p → beginnings [event] = [] → endings [event] = [] →
      Told activities (events ++ [event]) p' := by
    rintro rfl hb hend
    refine ⟨?_, ?_⟩
    · rw [beginnings_append, hb, append_nil, hor]
    · rw [beginnings_append, endings_append, hb, hend, append_nil, append_nil, ho]
  have hov : ∀ key : ActivityKey, p.key = some key → p' = ⟨p.rest, none⟩ →
      beginnings [event] = [] → endings [event] = [key] →
      Told activities (events ++ [event]) p' := by
    rintro key hkey rfl hb hend
    refine ⟨?_, ?_⟩
    · rw [beginnings_append, hb, append_nil, hor]
    · rw [beginnings_append, endings_append, hb, hend, append_nil, ho, hkey]
      simp [Agenda.key]
  cases event with
  | activity e =>
    cases e with
    | started id version =>
      obtain ⟨hi, d, rest, hr, hkey, rfl⟩ := hm
      have hb : beginnings [Event.activity (.started id version)] = [activityKey d] := by
        rw [hkey]
        rfl
      have hn : p.key = none := by rw [Agenda.key, hi]; rfl
      refine ⟨?_, ?_⟩
      · rw [beginnings_append, hb, hor, hr]
        simp
      · rw [beginnings_append, endings_append, hb, ho, hn]
        simp [Agenda.key, endings]
    | retrying id version retry => exact hs hm.2 rfl rfl
    | succeeded id version summary => exact hov _ hm.1 hm.2 rfl rfl
    | failed id version summary failure => exact hov _ hm.1 hm.2 rfl rfl
    | cancelled id version summary => exact hov _ hm.1 hm.2 rfl rfl
  | report r => exact hs hm.2 rfl rfl
  | _ => exact hs hm rfl rfl

theorem Told.follows : ∀ {events events' : List Event}
    {p p' : Agenda}, Told activities events p → Follows Agenda.moves p events' p' →
    Told activities (events ++ events') p'
  | events, [], p, p', h, hf => by
    cases hf
    simpa using h
  | events, event :: events', p, p', h, ⟨p₁, hm, hr⟩ => by
    have hn := (h.event hm).follows hr
    simpa using hn

theorem told_of_follows {p : Agenda} (h : Follows Agenda.moves ⟨activities, none⟩ events p) :
    Told activities events p := by
  have hs : Told activities [] ⟨activities, none⟩ := ⟨rfl, rfl⟩
  exact hs.follows h

section Run

variable {τ : Type} (setup : Setup) (host : Host τ) (steps : List EntryStep) (path : String) (t : τ)

/-- Accepted activities start in the order of their spans, one at a time; each
one that has started has one end, in a run that has come to an end; and every
report is about the activity that is under way. -/
theorem activities_in_order
    (h : requireValidExecutorActivities setup.activities steps.length path = .ok ()) :
    beginnings (runSteps setup host steps t).2.trace <+: setup.activities.map activityKey ∧
    ((runSteps setup host steps t).1 ≠ .pending →
      endings (runSteps setup host steps t).2.trace =
        beginnings (runSteps setup host steps t).2.trace) ∧
    (∀ before after, (runSteps setup host steps t).2.trace = before ++ after →
      beginnings before = endings before ++ (underWay before).toList) ∧
    ∀ before r after, (runSteps setup host steps t).2.trace = before ++ .report r :: after →
      r.activity = underWay before := by
  obtain ⟨p, hf, hend⟩ := run_agenda host h t
  have ht := told_of_follows hf
  refine ⟨⟨_, ht.order.symm⟩, fun hp => ?_, fun before after htr => ?_,
    fun before r after htr => ?_⟩
  · have hn : p.key = none := by rw [Agenda.key, hend hp]; rfl
    rw [ht.open_, hn]
    simp
  · rw [htr] at hf
    obtain ⟨p₁, hb, -⟩ := follows_append.mp hf
    have ht₁ := told_of_follows hb
    rw [ht₁.underWay]
    exact ht₁.open_
  · rw [htr] at hf
    obtain ⟨p₁, hb, p₂, ⟨hr, -⟩, -⟩ := follows_append.mp hf
    rw [hr, (told_of_follows hb).underWay]

end Run

/-- Two activities, one for the first step and one for the rest of three. -/
def phasedSetup : Setup :=
  { plainSetup with
    activities := [
      { id := "demo.prepare", version := 1, binding := .executorSpan .steps 0 1 },
      { id := "demo.transfer", version := 2, binding := .executorSpan .steps 1 3 }] }

def phasedPlan : List EntryStep :=
  [.sendOp 0x1001 [] [] 1 false, .sendOp 0x1002 [] [] 1 false, .sendOp 0x1003 [] [] 1 false]

theorem activities_in_order_phased :
    beginnings (runSteps phasedSetup (busyHost 0) phasedPlan 0).2.trace =
      [("demo.prepare", 1), ("demo.transfer", 2)] ∧
    endings (runSteps phasedSetup (busyHost 0) phasedPlan 0).2.trace =
      [("demo.prepare", 1), ("demo.transfer", 2)] := by
  have hv : requireValidExecutorActivities phasedSetup.activities phasedPlan.length "activities" =
      .ok () := by decide +kernel
  have hb : beginnings (runSteps phasedSetup (busyHost 0) phasedPlan 0).2.trace =
      [("demo.prepare", 1), ("demo.transfer", 2)] := by decide +kernel
  have hend : (runSteps phasedSetup (busyHost 0) phasedPlan 0).1 ≠ .pending := by decide +kernel
  have ho := activities_in_order phasedSetup (busyHost 0) phasedPlan "activities" 0 hv
  exact ⟨hb, (ho.2.1 hend).trans hb⟩

end Ptpsim.Executor
