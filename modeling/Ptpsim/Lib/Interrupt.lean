/-
# Computations that may be dropped

A program that waits for its surroundings can be dropped where it waits: a
race that it runs in is decided by its clock, and what the program has done up
to there stays done. Races are nested, so a computation that is dropped says
which clock it was, counted from the inside (`Stop.dropped`). A failure can be
looked at and dealt with (`attempt`), and no race is concerned with it.

What a computation keeps is a relation between the state it starts in, how it
ends and the state it leaves behind (`Kept`). If the relation can be composed
(`Composes`), a sequence keeps what its parts keep. A log is read event by event
by a monitor (`Follows`).
-/
import Mathlib.Data.List.Basic

namespace Ptpsim.Interrupt

/-! ### Computations -/

/-- Why a computation ends without a result. -/
inductive Stop (ε κ : Type) where
  | failed (error : ε)
  /-- The clock of a race has run out: of the innermost one at level 0. -/
  | dropped (level : ℕ) (clock : κ)
  /-- The computation goes no further: it panics, or the observation ends while
  it is under way. -/
  | halted (panicked : Bool)
deriving DecidableEq

abbrev Exec (ε κ σ : Type) := EStateM (Stop ε κ) σ

variable {ε κ σ α β : Type}

/-- A failure becomes a value. -/
def attempt (c : Exec ε κ σ α) : Exec ε κ σ (Except ε α) := fun s =>
  match c s with
  | .ok a s' => .ok (.ok a) s'
  | .error (.failed e) s' => .ok (.error e) s'
  | .error (.dropped level clock) s' => .error (.dropped level clock) s'
  | .error (.halted panicked) s' => .error (.halted panicked) s'

/-- The computation against a clock; `late` is what follows when the clock
wins. -/
def race (c : Exec ε κ σ α) (late : κ → Exec ε κ σ α) : Exec ε κ σ α := fun s =>
  match c s with
  | .ok a s' => .ok a s'
  | .error (.failed e) s' => .error (.failed e) s'
  | .error (.dropped 0 clock) s' => late clock s'
  | .error (.dropped (level + 1) clock) s' => .error (.dropped level clock) s'
  | .error (.halted panicked) s' => .error (.halted panicked) s'

/-- The computation with a guard: something done when it is over in whatever
way, a panic included. -/
def ensuring (c : Exec ε κ σ α) (cleanup : σ → σ) : Exec ε κ σ α := fun s =>
  match c s with
  | .ok a s' => .ok a (cleanup s')
  | .error (.halted false) s' => .error (.halted false) s'
  | .error e s' => .error e (cleanup s')

/-- A call is answered, or a clock of one of the races around it runs out while
it waits; a clock beyond the outermost race is the run being given up. -/
inductive Answered (κ α : Type) where
  | reply (a : α)
  | clock (level : ℕ) (result : κ)

variable {c : Exec ε κ σ α} {s s' : σ}

theorem bind_ok {f : α → Exec ε κ σ β} {a : α} (h : c s = .ok a s') : (c >>= f) s = f a s' := by
  change EStateM.bind c f s = _
  simp only [EStateM.bind, h]

theorem bind_error {f : α → Exec ε κ σ β} {e : Stop ε κ} (h : c s = .error e s') :
    (c >>= f) s = .error e s' := by
  change EStateM.bind c f s = _
  simp only [EStateM.bind, h]

section Cases

variable {c : Exec ε κ σ α} {late : κ → Exec ε κ σ α} {s s' : σ}

theorem attempt_ok {a : α} (h : c s = .ok a s') : attempt c s = .ok (.ok a) s' := by
  simp only [attempt, h]

theorem attempt_failed {e : ε} (h : c s = .error (.failed e) s') :
    attempt c s = .ok (.error e) s' := by
  simp only [attempt, h]

variable {clock : κ}

theorem attempt_dropped {level : ℕ} (h : c s = .error (.dropped level clock) s') :
    attempt c s = .error (.dropped level clock) s' := by
  simp only [attempt, h]

theorem attempt_halted {panicked : Bool} (h : c s = .error (.halted panicked) s') :
    attempt c s = .error (.halted panicked) s' := by
  simp only [attempt, h]

theorem race_ok {a : α} (h : c s = .ok a s') : race c late s = .ok a s' := by
  simp only [race, h]

theorem race_failed {e : ε} (h : c s = .error (.failed e) s') :
    race c late s = .error (.failed e) s' := by
  simp only [race, h]

theorem race_late (h : c s = .error (.dropped 0 clock) s') : race c late s = late clock s' := by
  simp only [race, h]

theorem race_outer {level : ℕ} (h : c s = .error (.dropped (level + 1) clock) s') :
    race c late s = .error (.dropped level clock) s' := by
  simp only [race, h]

theorem race_halted {panicked : Bool} (h : c s = .error (.halted panicked) s') :
    race c late s = .error (.halted panicked) s' := by
  simp only [race, h]

end Cases

/-! ### What a computation keeps -/

/-- How a computation ended: `none` if it has a result. -/
def ending : EStateM.Result (Stop ε κ) σ α → Option (Stop ε κ)
  | .ok _ _ => none
  | .error e _ => some e

def final : EStateM.Result (Stop ε κ) σ α → σ
  | .ok _ s => s
  | .error _ s => s

theorem attempt_bind_cases {f : Except ε α → Exec ε κ σ β}
    {P : EStateM.Result (Stop ε κ) σ β → Prop} (hok : ∀ a s', c s = .ok a s' → P (f (.ok a) s'))
    (hf : ∀ e s', c s = .error (.failed e) s' → P (f (.error e) s'))
    (hs : ∀ e s', c s = .error e s' → (∀ error, e ≠ .failed error) → P (.error e s')) :
    P ((attempt c >>= f) s) := by
  rcases hr : c s with ⟨a, s'⟩ | ⟨e | ⟨level, clock⟩ | _, s'⟩
  · rw [bind_ok (attempt_ok hr)]
    exact hok a s' hr
  · rw [bind_ok (attempt_failed hr)]
    exact hf e s' hr
  · rw [bind_error (attempt_dropped hr)]
    exact hs _ s' hr (by simp)
  · rw [bind_error (attempt_halted hr)]
    exact hs _ s' hr (by simp)

/-- The result has the one property, or the state after a stop has the other. -/
def Meets (Q : α → σ → Prop) (E : σ → Prop) : EStateM.Result (Stop ε κ) σ α → Prop
  | .ok a s => Q a s
  | .error _ s => E s

theorem Meets.bind {Q : α → σ → Prop} {Q' : β → σ → Prop} {E E' : σ → Prop}
    {f : α → Exec ε κ σ β} (h : Meets Q E (c s)) (hf : ∀ a t, Q a t → Meets Q' E' (f a t))
    (he : ∀ t, E t → E' t) : Meets Q' E' ((c >>= f) s) := by
  rcases hr : c s with ⟨a, t⟩ | ⟨e, t⟩
  · rw [hr] at h
    rw [bind_ok hr]
    exact hf a t h
  · rw [hr] at h
    rw [bind_error hr]
    exact he t h

theorem Meets.mono {Q Q' : α → σ → Prop} {E E' : σ → Prop} {r : EStateM.Result (Stop ε κ) σ α}
    (h : Meets Q E r) (hq : ∀ a t, Q a t → Q' a t) (he : ∀ t, E t → E' t) : Meets Q' E' r := by
  cases r with
  | ok a t => exact hq a t h
  | error e t => exact he t h

/-- From every state the computation ends in a way the relation allows. -/
def Kept (R : σ → Option (Stop ε κ) → σ → Prop) (c : Exec ε κ σ α) : Prop :=
  ∀ s, R s (ending (c s)) (final (c s))

/-- The relation of a sequence follows from those of its parts. -/
structure Composes (R : σ → Option (Stop ε κ) → σ → Prop) : Prop where
  refl : ∀ s, R s none s
  trans : ∀ {s s₁ s₂ : σ} {e : Option (Stop ε κ)}, R s none s₁ → R s₁ e s₂ → R s e s₂

section Rules

variable {R : σ → Option (Stop ε κ) → σ → Prop} {c : Exec ε κ σ α}

theorem Kept.pure (h : Composes R) (a : α) : Kept R (Pure.pure a : Exec ε κ σ α) := h.refl

theorem Kept.get (h : Composes R) : Kept R (MonadState.get : Exec ε κ σ σ) := h.refl

theorem Kept.throw {e : Stop ε κ} (h : ∀ s, R s (some e) s) :
    Kept R (MonadExcept.throw e : Exec ε κ σ α) := h

theorem Kept.modify {f : σ → σ} (h : ∀ s, R s none (f s)) :
    Kept R (modify f : Exec ε κ σ PUnit) := h

theorem Kept.bind (h : Composes R) {f : α → Exec ε κ σ β} (hc : Kept R c)
    (hf : ∀ a, Kept R (f a)) : Kept R (c >>= f) := by
  intro s
  have hs := hc s
  rcases hr : c s with ⟨a, s'⟩ | ⟨e, s'⟩
  · rw [hr] at hs
    rw [bind_ok hr]
    exact h.trans hs (hf a s')
  · rw [hr] at hs
    rw [bind_error hr]
    exact hs

/-- What follows a failure may use how far the computation came. -/
theorem Kept.attempt_bind (h : Composes R) {f : Except ε α → Exec ε κ σ β} (hc : Kept R c)
    (hok : ∀ a, Kept R (f (.ok a)))
    (hf : ∀ e s s', R s (some (.failed e)) s' →
      R s (ending (f (.error e) s')) (final (f (.error e) s'))) :
    Kept R (attempt c >>= f) := by
  intro s
  have hs := hc s
  refine attempt_bind_cases (P := fun r => R s (ending r) (final r)) (fun a s' hr => ?_)
    (fun e s' hr => ?_) fun e s' hr _ => ?_
  all_goals rw [hr] at hs
  · exact h.trans hs (hok a s')
  · exact hf e s s' hs
  · exact hs

theorem Kept.race {late : κ → Exec ε κ σ α} (hc : Kept R c)
    (hl : ∀ clock s s', R s (some (.dropped 0 clock)) s' →
      R s (ending (late clock s')) (final (late clock s')))
    (ho : ∀ level clock s s', R s (some (.dropped (level + 1) clock)) s' →
      R s (some (.dropped level clock)) s') :
    Kept R (race c late) := by
  intro s
  have hs := hc s
  rcases hr : c s with ⟨a, s'⟩ | ⟨e | ⟨_ | level, clock⟩ | _, s'⟩
  · rw [hr] at hs
    rw [race_ok hr]
    exact hs
  · rw [hr] at hs
    rw [race_failed hr]
    exact hs
  · rw [hr] at hs
    rw [race_late hr]
    exact hl clock s s' hs
  · rw [hr] at hs
    rw [race_outer hr]
    exact ho level clock s s' hs
  · rw [hr] at hs
    rw [race_halted hr]
    exact hs

theorem Kept.ite {p : Prop} [Decidable p] {d : Exec ε κ σ α} (hc : p → Kept R c)
    (hd : ¬ p → Kept R d) : Kept R (if p then c else d) := by
  split
  · exact hc ‹_›
  · exact hd ‹_›

theorem Kept.mono {R' : σ → Option (Stop ε κ) → σ → Prop} (hc : Kept R c)
    (h : ∀ s e s', R s e s' → R' s e s') : Kept R' c := fun s => h _ _ _ (hc s)

end Rules

/-! ### Computations that do the same -/

section Agree

variable {σ' : Type} {R : σ → σ' → Prop}

/-- The same result or the same stop, in states that are related. -/
inductive Matches (R : σ → σ' → Prop) :
    EStateM.Result (Stop ε κ) σ α → EStateM.Result (Stop ε κ) σ' α → Prop
  | ok {a : α} {s : σ} {s' : σ'} (h : R s s') : Matches R (.ok a s) (.ok a s')
  | error {e : Stop ε κ} {s : σ} {s' : σ'} (h : R s s') : Matches R (.error e s) (.error e s')

/-- From related states the two computations end alike. -/
def Agree (R : σ → σ' → Prop) (c : Exec ε κ σ α) (c' : Exec ε κ σ' α) : Prop :=
  ∀ s s', R s s' → Matches R (c s) (c' s')

theorem Agree.pure (a : α) : Agree R (Pure.pure a : Exec ε κ σ α) (Pure.pure a) :=
  fun _ _ h => .ok h

theorem Agree.throw (e : Stop ε κ) :
    Agree R (MonadExcept.throw e : Exec ε κ σ α) (MonadExcept.throw e) :=
  fun _ _ h => .error h

theorem Agree.modify {f : σ → σ} {f' : σ' → σ'} (h : ∀ s s', R s s' → R (f s) (f' s')) :
    Agree R (modify f : Exec ε κ σ PUnit) (modify f' : Exec ε κ σ' PUnit) :=
  fun s s' hs => .ok (h s s' hs)

variable {c' : Exec ε κ σ' α} {c : Exec ε κ σ α}

theorem Matches.bind {R₁ : σ → σ' → Prop} {f : α → Exec ε κ σ β} {f' : α → Exec ε κ σ' β} {s : σ}
    {s' : σ'} (hc : Matches R₁ (c s) (c' s')) (hs : ∀ t t', R₁ t t' → R t t')
    (hf : ∀ a t t', R₁ t t' → Matches R (f a t) (f' a t')) :
    Matches R ((c >>= f) s) ((c' >>= f') s') := by
  generalize hr : c s = r at hc
  generalize hr' : c' s' = r' at hc
  cases hc with
  | ok ht =>
    rw [bind_ok hr, bind_ok hr']
    exact hf _ _ _ ht
  | error ht =>
    rw [bind_error hr, bind_error hr']
    exact .error (hs _ _ ht)

theorem Agree.bind {f : α → Exec ε κ σ β} {f' : α → Exec ε κ σ' β} (hc : Agree R c c')
    (hf : ∀ a, Agree R (f a) (f' a)) :
    Agree R (c >>= f) (c' >>= f') :=
  fun s s' hs => (hc s s' hs).bind (fun _ _ ht => ht) hf

theorem Agree.ite {p : Prop} [Decidable p] {d : Exec ε κ σ α} {d' : Exec ε κ σ' α}
    (hc : p → Agree R c c') (hd : ¬ p → Agree R d d') :
    Agree R (if p then c else d) (if p then c' else d') := by
  split
  · exact hc ‹_›
  · exact hd ‹_›

theorem Matches.ensuring {cleanup : σ → σ} {cleanup' : σ' → σ'} {s : σ} {s' : σ'}
    (hc : Matches R (c s) (c' s')) (hcl : ∀ t t', R t t' → R (cleanup t) (cleanup' t')) :
    Matches R (ensuring c cleanup s) (ensuring c' cleanup' s') := by
  unfold Interrupt.ensuring
  generalize c s = r at hc
  generalize c' s' = r' at hc
  cases hc with
  | ok ht => exact .ok (hcl _ _ ht)
  | @error e _ _ ht =>
    rcases e with e | ⟨level, clock⟩ | _ | _
    · exact .error (hcl _ _ ht)
    · exact .error (hcl _ _ ht)
    · exact .error ht
    · exact .error (hcl _ _ ht)

end Agree

/-- The failure a computation ended with; a computation that was dropped has
none. -/
def failure : Option (Stop ε κ) → Option ε
  | some (.failed e) => some e
  | _ => none

/-! ### Logs and monitors -/

section Logs

variable {ι μ : Type}

/-- The monitor accepts the events, one after the other. -/
def Follows (moves : μ → ι → μ → Prop) : μ → List ι → μ → Prop
  | p, [], q => p = q
  | p, i :: is, q => ∃ r, moves p i r ∧ Follows moves r is q

variable {moves : μ → ι → μ → Prop}

theorem follows_append : ∀ {p q : μ} {is js : List ι},
    Follows moves p (is ++ js) q ↔ ∃ r, Follows moves p is r ∧ Follows moves r js q
  | p, q, [], js => by simp [Follows]
  | p, q, i :: is, js => by
    simp only [List.cons_append, Follows, follows_append]
    constructor
    · rintro ⟨r, hr, r', hr', hq⟩
      exact ⟨r', ⟨r, hr, hr'⟩, hq⟩
    · rintro ⟨r', ⟨r, hr, hr'⟩, hq⟩
      exact ⟨r, hr, r', hr', hq⟩

theorem follows_singleton {p q : μ} {i : ι} : Follows moves p [i] q ↔ moves p i q := by
  simp [Follows]

theorem follows_same {p : μ} : ∀ {is : List ι}, (∀ i ∈ is, moves p i p) → Follows moves p is p
  | [], _ => rfl
  | i :: is, h =>
    ⟨p, h i (by simp), follows_same fun j hj => h j (List.mem_cons_of_mem i hj)⟩

end Logs

end Ptpsim.Interrupt
