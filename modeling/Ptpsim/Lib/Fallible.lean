/-
# Computations that may fail

What an `Except` computation that returned has done: a sequence of two returned
in both parts (`bind_eq_ok_iff`), and a loop over a list returned in every round
(`mapM_eq_ok_iff`).
-/
import Mathlib.Data.List.Forall2

namespace Ptpsim.Fallible

open List

variable {ε α β : Type} {f : α → Except ε β}

theorem bind_eq_ok_iff {x : Except ε α} {b : β} :
    x >>= f = .ok b ↔ ∃ a, x = .ok a ∧ f a = .ok b := by
  cases x with
  | error e =>
    constructor
    · intro h
      cases h
    · rintro ⟨_, h, _⟩
      cases h
  | ok a =>
    constructor
    · intro h
      exact ⟨a, rfl, h⟩
    · rintro ⟨_, h, hf⟩
      cases h
      exact hf

theorem guard_eq_ok_iff {p : Prop} [Decidable p] {e : ε} {x : Except ε α} {a : α} :
    (if p then .error e else x) = .ok a ↔ ¬ p ∧ x = .ok a := by
  by_cases hp : p
  · simp [hp]
  · simp [hp]

theorem mapM_eq_ok_iff : ∀ {as : List α} {bs : List β},
    as.mapM f = .ok bs ↔ List.Forall₂ (fun a b => f a = .ok b) as bs
  | [], bs => by
    constructor
    · rintro ⟨⟩
      exact .nil
    · rintro ⟨⟩
      rfl
  | a :: as, bs => by
    rw [mapM_cons, bind_eq_ok_iff]
    constructor
    · rintro ⟨b, hb, h⟩
      obtain ⟨bs', hbs, ⟨⟩⟩ := bind_eq_ok_iff.mp h
      exact .cons hb (mapM_eq_ok_iff.mp hbs)
    · rintro (⟨⟩ | ⟨hb, hbs⟩)
      exact ⟨_, hb, bind_eq_ok_iff.mpr ⟨_, mapM_eq_ok_iff.mpr hbs, rfl⟩⟩

theorem exists_mapM_eq_ok {as : List α} (h : ∀ a ∈ as, ∃ b, f a = .ok b) :
    ∃ bs, as.mapM f = .ok bs := by
  induction as with
  | nil => exact ⟨[], rfl⟩
  | cons a as ih =>
    obtain ⟨b, hb⟩ := h a mem_cons_self
    obtain ⟨bs, hbs⟩ := ih fun a' ha' => h a' (mem_cons_of_mem _ ha')
    exact ⟨b :: bs, mapM_eq_ok_iff.mpr (.cons hb (mapM_eq_ok_iff.mp hbs))⟩

/-! ### Rounds and what they returned -/

section Rounds

variable {R : α → β → Prop} {as : List α} {bs : List β}

theorem exists_round (h : List.Forall₂ R as bs) {b : β} (hb : b ∈ bs) : ∃ a ∈ as, R a b := by
  induction h with
  | nil => cases hb
  | @cons a b' as bs hab _ ih =>
    rcases mem_cons.mp hb with rfl | hb
    · exact ⟨a, mem_cons_self, hab⟩
    · obtain ⟨a', ha', hR⟩ := ih hb
      exact ⟨a', mem_cons_of_mem _ ha', hR⟩

theorem exists_returned (h : List.Forall₂ R as bs) {a : α} (ha : a ∈ as) : ∃ b ∈ bs, R a b :=
  exists_round h.flip ha

theorem pairwise_returned {S : β → β → Prop} (h : List.Forall₂ R as bs) (hn : as.Nodup)
    (hrel : ∀ {a a' b b'}, a ∈ as → a' ∈ as → a ≠ a' → R a b → R a' b' → S b b') :
    bs.Pairwise S := by
  induction h with
  | nil => exact .nil
  | @cons a b as bs hab hr ih =>
    rw [nodup_cons] at hn
    refine pairwise_cons.mpr ⟨fun b' hb' => ?_, ih hn.2 fun ha ha' =>
      hrel (mem_cons_of_mem _ ha) (mem_cons_of_mem _ ha')⟩
    obtain ⟨a', ha', hab'⟩ := exists_round hr hb'
    refine hrel mem_cons_self (mem_cons_of_mem _ ha') ?_ hab hab'
    rintro rfl
    exact hn.1 ha'

end Rounds

end Ptpsim.Fallible
