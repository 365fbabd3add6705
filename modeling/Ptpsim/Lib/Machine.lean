/-
# Runs of a state machine with outputs

A machine answers every input with an output and moves on. A run folds the
inputs into the state; an invariant that every step keeps holds after every
run (`run_invariant`), also if the steps keep it only as long as the inputs
meet a condition that depends on the state they come in (`Along`). A record of
what has happened can be carried along without touching the run (`recorded`),
and refused inputs that leave the state as it was may be left out
(`run_accepted`). Where a step may fail, the run stops there (`Ends.foldlM`).
-/
import Mathlib.Data.List.Basic

namespace Ptpsim.Machine

variable {σ ι ο : Type} (step : σ → ι → ο × σ)

/-- The state after the inputs. -/
def run : σ → List ι → σ
  | s, [] => s
  | s, i :: is => run (step s i).2 is

/-- The answers to the inputs, in order. -/
def outputs : σ → List ι → List ο
  | _, [] => []
  | s, i :: is => (step s i).1 :: outputs (step s i).2 is

theorem run_append : ∀ (s : σ) (is js : List ι), run step s (is ++ js) = run step (run step s is) js
  | _, [], _ => rfl
  | s, i :: is, js => run_append (step s i).2 is js

theorem outputs_append : ∀ (s : σ) (is js : List ι),
    outputs step s (is ++ js) = outputs step s is ++ outputs step (run step s is) js
  | _, [], _ => rfl
  | s, i :: is, js => by
    rw [List.cons_append, outputs, outputs_append (step s i).2 is js]
    rfl

variable {P : σ → Prop} {C : σ → ι → Prop}

/-- What every step keeps holds after every run. -/
theorem run_invariant (hs : ∀ s i, P s → P (step s i).2) :
    ∀ (s : σ) (is : List ι), P s → P (run step s is)
  | _, [], h => h
  | s, i :: is, h => run_invariant hs (step s i).2 is (hs s i h)

/-- Every input of the run meets the condition in the state it comes in. -/
def Along (C : σ → ι → Prop) : σ → List ι → Prop
  | _, [] => True
  | s, i :: is => C s i ∧ Along C (step s i).2 is

instance (C : σ → ι → Prop) [∀ s i, Decidable (C s i)] :
    ∀ (s : σ) (is : List ι), Decidable (Along step C s is)
  | _, [] => isTrue trivial
  | s, i :: is => @instDecidableAnd _ _ _ (instDecidableAlong C (step s i).2 is)

/-- What every step under the condition keeps holds after every run that meets
it. -/
theorem Along.run_invariant (hs : ∀ s i, C s i → P s → P (step s i).2) :
    ∀ (s : σ) (is : List ι), Along step C s is → P s → P (run step s is)
  | _, [], _, h => h
  | s, i :: is, hC, h => run_invariant hs (step s i).2 is hC.2 (hs s i hC.1 h)

theorem Along.of_append : ∀ {s : σ} {is js : List ι},
    Along step C s (is ++ js) → Along step C s is
  | _, [], _, _ => trivial
  | _, _ :: _, _, h => ⟨h.1, Along.of_append h.2⟩

theorem Along.and_mem {P : ι → Prop} : ∀ {s : σ} {is : List ι},
    Along step C s is → (∀ i ∈ is, P i) → Along step (fun s i => P i ∧ C s i) s is
  | _, [], _, _ => trivial
  | _, i :: _, h, hP => ⟨⟨hP i List.mem_cons_self, h.1⟩,
    Along.and_mem h.2 fun j hj => hP j (List.mem_cons_of_mem i hj)⟩

/-- A run in which every input that counts uses up a part of `left`, as long
as it goes on, does not go on for more of them than there is. -/
theorem run_progress (goesOn : σ → Prop) (counts : ι → Bool) (left : σ → ℕ)
    (hs : ∀ s i, P s → P (step s i).2 ∧
      (goesOn (step s i).2 → goesOn s ∧ (if counts i then 1 else 0) + left (step s i).2 ≤ left s)) :
    ∀ (s : σ) (is : List ι), P s → P (run step s is) ∧
      (goesOn (run step s is) → goesOn s ∧ is.countP counts + left (run step s is) ≤ left s)
  | s, [], h => ⟨h, fun hg => ⟨hg, by simp [run]⟩⟩
  | s, i :: is, h => by
    obtain ⟨hn, hp⟩ := hs s i h
    obtain ⟨hl, hla⟩ := run_progress goesOn counts left hs (step s i).2 is hn
    refine ⟨hl, fun hg => ?_⟩
    obtain ⟨hg', hle⟩ := hla hg
    obtain ⟨hg'', hle'⟩ := hp hg'
    refine ⟨hg'', ?_⟩
    change _ + left (run step (step s i).2 is) ≤ left s
    rw [List.countP_cons]
    omega

/-! ### Records -/

variable {γ : Type} (note : σ → ι → γ → γ)

/-- The machine with a record that every step adds to. -/
def recorded (sg : σ × γ) (i : ι) : ο × (σ × γ) :=
  ((step sg.1 i).1, ((step sg.1 i).2, note sg.1 i sg.2))

theorem run_recorded : ∀ (s : σ) (g : γ) (is : List ι),
    (run (recorded step note) (s, g) is).1 = run step s is
  | _, _, [] => rfl
  | s, g, i :: is => run_recorded (step s i).2 (note s i g) is

theorem Along.recorded : ∀ (s : σ) (g : γ) (is : List ι),
    Along step C s is → Along (recorded step note) (fun sg i => C sg.1 i) (s, g) is
  | _, _, [], _ => trivial
  | s, g, i :: is, h => ⟨h.1, Along.recorded (step s i).2 (note s i g) is h.2⟩

/-! ### Refused inputs -/

variable (ok : ο → Bool)

/-- The inputs of a run that were not refused. -/
def accepted : σ → List ι → List ι
  | _, [] => []
  | s, i :: is =>
    if ok (step s i).1 then i :: accepted (step s i).2 is else accepted (step s i).2 is

theorem accepted_append : ∀ (s : σ) (is js : List ι),
    accepted step ok s (is ++ js) = accepted step ok s is ++ accepted step ok (run step s is) js
  | _, [], _ => rfl
  | s, i :: is, js => by
    rw [List.cons_append, accepted, accepted, run, accepted_append (step s i).2 is js]
    by_cases h : ok (step s i).1 = true
    · rw [if_pos h, if_pos h, List.cons_append]
    · rw [if_neg h, if_neg h]

variable {step ok}

/-- The run without the refused inputs ends in the same state. -/
theorem run_accepted (hr : ∀ s i, ok (step s i).1 = false → (step s i).2 = s) :
    ∀ (s : σ) (is : List ι), run step s (accepted step ok s is) = run step s is
  | _, [] => rfl
  | s, i :: is => by
    by_cases h : ok (step s i).1 = true
    · rw [accepted, if_pos h, run, run, run_accepted hr]
    · have hs := hr s i (by simpa using h)
      rw [accepted, if_neg h, run, hs]
      exact run_accepted hr s is

/-! ### Runs that may stop -/

/-- A computation ends with a value of which `P` holds, or fails with an error
that `Q` allows. -/
def Ends {ε α : Type} (P : α → Prop) (Q : ε → Prop) : Except ε α → Prop
  | .ok a => P a
  | .error e => Q e

namespace Ends

variable {ε α β : Type} {P : α → Prop} {R : β → Prop} {Q : ε → Prop}

theorem bind {x : Except ε α} {f : α → Except ε β} (hx : Ends P Q x)
    (hf : ∀ a, P a → Ends R Q (f a)) : Ends R Q (x >>= f) := by
  cases x with
  | ok a => exact hf a hx
  | error e => exact hx

theorem foldlM {step : α → ι → Except ε α} (hs : ∀ a i, P a → Ends P Q (step a i)) :
    ∀ (is : List ι) (a : α), P a → Ends P Q (is.foldlM step a)
  | [], _, ha => ha
  | i :: is, a, ha => by
    exact (hs a i ha).bind fun a' ha' => foldlM hs is a' ha'

end Ends
end Ptpsim.Machine
