/-
# A store with deferred writes

A map from keys to values, beside a map of transitions: values that become
visible after a number of polls of their key. A key is set at once (which
leaves a transition of the key under way), armed (at once, or with a delay, in
the place of any transition under way), or polled. A program that touches the
store only so is described by the list of its actions (`replay`). The facts
about such lists say what holds of all values (`Holds.replay`), how long a value
stays (`values_of_not_replaced`) and when a transition settles
(`values_of_onlyPolled`).
-/
import Mathlib.Data.List.Basic
import Mathlib.Logic.Function.Basic

namespace Ptpsim.Deferred

open List Function

variable {κ ν : Type}

/-- A value on its way: visible after `remaining` more polls. -/
structure Transition (ν : Type) where
  value : ν
  remaining : ℕ

@[ext]
structure Store (κ ν : Type) where
  values : κ → Option ν
  pending : κ → Option (Transition ν)

inductive Action (κ ν : Type) where
  | set (key : κ) (value : ν)
  | arm (key : κ) (value : ν) (delay : ℕ)
  | poll (key : κ)
deriving DecidableEq

namespace Action

def key : Action κ ν → κ
  | set k _ | arm k _ _ | poll k => k

/-- The key has a new value at once. -/
def sets : Action κ ν → Bool
  | set _ _ => true
  | arm _ _ delay => delay = 0
  | poll _ => false

/-- A transition of the key is under way. -/
def arms : Action κ ν → Bool
  | arm _ _ delay => delay ≠ 0
  | _ => false

def polls : Action κ ν → Bool
  | poll _ => true
  | _ => false

/-- The action is a poll of the key. -/
def pollsKey [DecidableEq κ] (k : κ) (a : Action κ ν) : Bool := a.polls && a.key = k

/-- All that the actions do to the key is to poll it. -/
def OnlyPolled (k : κ) (as : List (Action κ ν)) : Prop := ∀ a ∈ as, a.key = k → a.polls = true

theorem eq_poll {k : κ} {a : Action κ ν} (hkey : a.key = k) (hp : a.polls = true) :
    a = .poll k := by
  cases a with
  | poll k' => rw [show k' = k from hkey]
  | set k' v => cases hp
  | arm k' v delay => cases hp

/-- The value the action brings in, if any, has the property. -/
def Allowed (P : κ → ν → Prop) : Action κ ν → Prop
  | set k v | arm k v _ => P k v
  | poll _ => True

end Action

namespace Store

variable [DecidableEq κ]

/-- The next poll of the key makes its transition visible. -/
def settles (s : Store κ ν) (k : κ) : Bool := (s.pending k).any fun t => t.remaining ≤ 1

def settle (s : Store κ ν) (k : κ) (v : ν) : Store κ ν where
  values := Function.update s.values k (some v)
  pending := Function.update s.pending k none

def apply (s : Store κ ν) : Action κ ν → Store κ ν
  | .set k v => { s with values := Function.update s.values k (some v) }
  | .arm k v delay =>
    if delay = 0 then s.settle k v
    else { s with pending := Function.update s.pending k (some ⟨v, delay⟩) }
  | .poll k =>
    match s.pending k with
    | none => s
    | some t =>
      if t.remaining ≤ 1 then s.settle k t.value
      else { s with pending := Function.update s.pending k (some ⟨t.value, t.remaining - 1⟩) }

/-- The store after the actions, in order. -/
def replay (s : Store κ ν) (as : List (Action κ ν)) : Store κ ν := as.foldl apply s

@[simp] theorem replay_cons (s : Store κ ν) (a : Action κ ν) (as : List (Action κ ν)) :
    s.replay (a :: as) = (s.apply a).replay as := rfl

theorem replay_append (s : Store κ ν) (as bs : List (Action κ ν)) :
    s.replay (as ++ bs) = (s.replay as).replay bs :=
  foldl_append ..

/-! ### What an action leaves alone -/

variable {k : κ} {a : Action κ ν} {as : List (Action κ ν)} {s : Store κ ν} {t : Transition ν}

theorem apply_other (s : Store κ ν) (hk : a.key ≠ k) :
    (s.apply a).values k = s.values k ∧ (s.apply a).pending k = s.pending k := by
  have hne : k ≠ a.key := fun h => hk h.symm
  cases a with
  | set k' v => exact ⟨update_of_ne hne _ _, rfl⟩
  | arm k' v delay =>
    by_cases hd : delay = 0
    · simp only [apply, hd, if_true]
      exact ⟨update_of_ne hne _ _, update_of_ne hne _ _⟩
    · simp only [apply, hd, if_false]
      exact ⟨trivial, update_of_ne hne _ _⟩
  | poll k' =>
    unfold apply
    dsimp only
    split
    · exact ⟨rfl, rfl⟩
    · split
      · exact ⟨update_of_ne hne _ _, update_of_ne hne _ _⟩
      · exact ⟨rfl, update_of_ne hne _ _⟩

theorem replay_other (s : Store κ ν) (h : ∀ a ∈ as, a.key ≠ k) :
    (s.replay as).values k = s.values k ∧ (s.replay as).pending k = s.pending k := by
  induction as generalizing s with
  | nil => exact ⟨rfl, rfl⟩
  | cons a as ih =>
    obtain ⟨hv, hp⟩ := s.apply_other (h a mem_cons_self)
    obtain ⟨hva, hpe⟩ := ih (s.apply a) fun b hb => h b (mem_cons_of_mem a hb)
    exact ⟨hva.trans hv, hpe.trans hp⟩

/-- The action gives its key a value. -/
def writes (s : Store κ ν) (a : Action κ ν) : Bool := a.sets || a.polls && s.settles a.key

theorem values_of_not_writes (s : Store κ ν) (h : s.writes a = false) :
    (s.apply a).values = s.values := by
  cases a with
  | set k v => cases h
  | arm k v delay =>
    have hd : delay ≠ 0 := by simpa [writes, Action.sets, Action.polls] using h
    simp [apply, hd]
  | poll k =>
    have hs : s.settles k = false := by
      simpa [writes, Action.sets, Action.polls, Action.key] using h
    unfold apply
    dsimp only
    split
    · rfl
    · rename_i t ht
      have hr : ¬ t.remaining ≤ 1 := by simpa [settles, ht] using hs
      rw [if_neg hr]

theorem pending_of_not_arms (s : Store κ ν) (ha : a.arms = false) (hn : s.pending k = none) :
    (s.apply a).pending k = none := by
  by_cases hk : a.key = k
  · subst hk
    cases a with
    | set k v => exact hn
    | arm k v delay =>
      have hd : delay = 0 := by simpa [Action.arms] using ha
      simp [apply, hd, settle, Action.key]
    | poll k =>
      have hs : s.apply (.poll k) = s := by
        unfold apply
        dsimp only
        rw [show s.pending k = none from hn]
      rw [hs]
      exact hn
  · rw [(s.apply_other hk).2, hn]

theorem pending_of_replay (s : Store κ ν) (ha : ∀ a ∈ as, a.arms = false)
    (hn : s.pending k = none) :
    (s.replay as).pending k = none := by
  induction as generalizing s with
  | nil => exact hn
  | cons a as ih =>
    exact ih (s.apply a) (fun b hb => ha b (mem_cons_of_mem a hb))
      (s.pending_of_not_arms (ha a mem_cons_self) hn)

/-! ### Values that are not disturbed -/

/-- Some action of the list gives a value to one of the keys. -/
def disturbs (keys : κ → Bool) : Store κ ν → List (Action κ ν) → Bool
  | _, [] => false
  | s, a :: as => s.writes a && keys a.key || disturbs keys (s.apply a) as

theorem values_of_not_disturbs {keys : κ → Bool} (hk : keys k = true) (s : Store κ ν)
    (as : List (Action κ ν)) (h : s.disturbs keys as = false) :
    (s.replay as).values k = s.values k := by
  induction as generalizing s with
  | nil => rfl
  | cons a as ih =>
    obtain ⟨ha, has⟩ : (s.writes a && keys a.key) = false ∧ (s.apply a).disturbs keys as =
      false := by
      simpa [disturbs] using h
    rw [replay_cons, ih _ has]
    by_cases hkey : a.key = k
    · have hw : s.writes a = false := by simpa [hkey, hk] using ha
      rw [s.values_of_not_writes hw]
    · exact (s.apply_other hkey).1

/-! ### Values that are not replaced -/

/-- Something in the list replaces the value of the key: it is set, or a
transition settles that was armed in the list. `fresh` says whether one has
been armed already. -/
def replaced (k : κ) : Bool → Store κ ν → List (Action κ ν) → Bool
  | _, _, [] => false
  | fresh, s, a :: as =>
    a.key = k && (a.sets || a.polls && fresh && s.settles k) ||
      replaced k (fresh || a.key = k && a.arms) (s.apply a) as

/-- **A value stays until it is replaced**, if no older transition is under
way. -/
theorem values_of_not_replaced {fresh : Bool} (hfr : fresh = false → s.pending k = none)
    (h : replaced k fresh s as = false) :
    (s.replay as).values k = s.values k := by
  induction as generalizing s fresh with
  | nil => rfl
  | cons a as ih =>
    obtain ⟨ha, has⟩ : (decide (a.key = k) && (a.sets || a.polls && fresh && s.settles k)) = false ∧
        replaced k (fresh || decide (a.key = k) && a.arms) (s.apply a) as = false := by
      simpa only [replaced, Bool.or_eq_false_iff] using h
    have hv : (s.apply a).values k = s.values k := by
      by_cases hkey : a.key = k
      · -- a poll settles only what was armed in the list
        have hs : fresh = false → s.settles k = false := fun hf => by
          simp [settles, hfr hf]
        have hw : s.writes a = false := by
          simp only [hkey, decide_true, Bool.true_and, Bool.or_eq_false_iff] at ha
          rw [writes, ha.1, hkey]
          by_cases hf : fresh = false
          · simp [hs hf]
          · simpa [hf] using ha.2
        rw [s.values_of_not_writes hw]
      · exact (s.apply_other hkey).1
    rw [replay_cons, ih ?_ has, hv]
    intro hn
    obtain ⟨hf, har⟩ := Bool.or_eq_false_iff.mp hn
    by_cases hkey : a.key = k
    · exact s.pending_of_not_arms (by simpa [hkey] using har) (hfr hf)
    · rw [(s.apply_other hkey).2, hfr hf]

/-! ### Keys that are only polled -/

theorem apply_poll_settles (s : Store κ ν) (ht : s.pending k = some t) (hl : t.remaining ≤ 1) :
    s.apply (.poll k) = s.settle k t.value := by
  simp [apply, ht, hl]

theorem apply_poll_waits (s : Store κ ν) (ht : s.pending k = some t) (hm : ¬ t.remaining ≤ 1) :
    s.apply (.poll k) =
      { s with pending := Function.update s.pending k (some ⟨t.value, t.remaining - 1⟩) } := by
  simp [apply, ht, hm]

theorem values_of_idle (hn : s.pending k = none) (h : Action.OnlyPolled k as) :
    (s.replay as).values k = s.values k := by
  induction as generalizing s with
  | nil => rfl
  | cons a as ih =>
    have hr : Action.OnlyPolled k as := fun b hb => h b (mem_cons_of_mem a hb)
    rw [replay_cons]
    by_cases hkey : a.key = k
    · have hpo : a = .poll k := Action.eq_poll hkey (h a mem_cons_self hkey)
      have hs : s.apply a = s := by simp [hpo, apply, hn]
      rw [hs]
      exact ih hn hr
    · obtain ⟨hv, hp⟩ := s.apply_other hkey
      rw [ih (hp.trans hn) hr, hv]

/-- **A transition settles on the poll it waits for.** -/
theorem values_of_onlyPolled (ht : s.pending k = some t) (hw : 0 < t.remaining)
    (h : Action.OnlyPolled k as) :
    (s.replay as).values k =
      if as.countP (Action.pollsKey k) < t.remaining then s.values k else some t.value := by
  induction as generalizing s t with
  | nil => simp [replay, hw]
  | cons a as ih =>
    have hr : Action.OnlyPolled k as := fun b hb => h b (mem_cons_of_mem a hb)
    rw [replay_cons]
    by_cases hkey : a.key = k
    · have hpo := h a mem_cons_self hkey
      have hp : a = .poll k := Action.eq_poll hkey hpo
      have hc : (a :: as).countP (Action.pollsKey k) = as.countP (Action.pollsKey k) + 1 :=
        countP_cons_of_pos (by simp [Action.pollsKey, hpo, hkey])
      rw [hc]
      by_cases hl : t.remaining ≤ 1
      · -- the value stays from here on
        have hi : (s.settle k t.value).pending k = none := update_self ..
        have hnew : (s.settle k t.value).values k = some t.value := update_self ..
        rw [hp, s.apply_poll_settles ht hl, values_of_idle hi hr, hnew, if_neg (by omega)]
      · rw [hp, s.apply_poll_waits ht hl]
        rw [ih (update_self ..) (show 0 < t.remaining - 1 by omega) hr]
        exact if_congr (by dsimp only; omega) rfl rfl
    · obtain ⟨hv, hpe⟩ := s.apply_other hkey
      have hc : (a :: as).countP (Action.pollsKey k) = as.countP (Action.pollsKey k) :=
        countP_cons_of_neg (by simp [Action.pollsKey, hkey])
      rw [ih (hpe.trans ht) hw hr, hv, hc]

end Store

/-! ### Properties of all values -/

/-- The property holds of every value, visible or on its way. -/
structure Holds (P : κ → ν → Prop) (s : Store κ ν) : Prop where
  values : ∀ k v, s.values k = some v → P k v
  pending : ∀ k t, s.pending k = some t → P k t.value

namespace Holds

variable [DecidableEq κ] {P : κ → ν → Prop} {s : Store κ ν}

theorem update_values (h : ∀ k v, s.values k = some v → P k v) {k : κ} {v : ν} (hv : P k v) :
    ∀ k' v', Function.update s.values k (some v) k' = some v' → P k' v' := by
  intro k' v' hv'
  by_cases hk : k' = k
  · subst hk
    rw [update_self] at hv'
    cases hv'
    exact hv
  · rw [update_of_ne hk] at hv'
    exact h k' v' hv'

theorem settle (h : Holds P s) {k : κ} {v : ν} (hv : P k v) : Holds P (s.settle k v) := by
  refine ⟨update_values h.values hv, fun k' t ht => ?_⟩
  by_cases hk : k' = k
  · subst hk
    simp [Store.settle] at ht
  · exact h.pending k' t (by simpa [Store.settle, hk] using ht)

theorem defer (h : Holds P s) {k : κ} {t : Transition ν} (hv : P k t.value) :
    Holds P { s with pending := Function.update s.pending k (some t) } := by
  refine ⟨h.values, fun k' t' ht => ?_⟩
  by_cases hk : k' = k
  · subst hk
    obtain rfl : t = t' := by simpa using ht
    exact hv
  · exact h.pending k' t' (by simpa [hk] using ht)

theorem apply (h : Holds P s) {a : Action κ ν} (ha : a.Allowed P) : Holds P (s.apply a) := by
  cases a with
  | set k v => exact ⟨update_values h.values ha, h.pending⟩
  | arm k v delay =>
    unfold Store.apply
    dsimp only
    split
    · exact h.settle ha
    · exact h.defer ha
  | poll k =>
    unfold Store.apply
    dsimp only
    split
    · exact h
    · rename_i t ht
      have hv : P k t.value := h.pending k t ht
      split
      · exact h.settle hv
      · exact h.defer hv

theorem replay (h : Holds P s) {as : List (Action κ ν)} (has : ∀ a ∈ as, a.Allowed P) :
    Holds P (s.replay as) := by
  induction as generalizing s with
  | nil => exact h
  | cons a as ih =>
    exact ih (h.apply (has a mem_cons_self)) fun b hb => has b (mem_cons_of_mem a hb)

end Holds

end Ptpsim.Deferred
