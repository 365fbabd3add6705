/-
# Items that are released in order and taken once

A conveyor brings a list of items. They wait in order. A release puts the next
few of them on offer, calling them out or quietly, and an item on offer can be
taken. If the items are distinct, none is lost and none comes twice: at any
time each of them is either waiting, on offer or taken, and it has been
released once if it is not waiting (`Conserves`).
-/
import Mathlib.Algebra.Order.Group.Multiset
import Mathlib.Data.Finset.Card
import Mathlib.Tactic.Abel

namespace Ptpsim

open List

structure Conveyor (α : Type) where
  waiting : List α
  offered : Finset α
  taken : List α
  /-- The items that were called out when they were released. -/
  called : List α
  /-- The items that were not. -/
  quiet : List α

namespace Conveyor

variable {α : Type}

/-- All items wait. -/
def start (items : List α) : Conveyor α := ⟨items, ∅, [], [], []⟩

/-- **No item is lost and none comes twice.** -/
structure Conserves (items : List α) (c : Conveyor α) : Prop where
  nodup : items.Nodup
  stock : (c.taken : Multiset α) + c.offered.val + c.waiting = items
  releases : (c.called : Multiset α) + c.quiet + c.waiting = items

namespace Conserves

variable {items front : List α} {c : Conveyor α}

theorem start (h : items.Nodup) : Conserves items (start items) :=
  ⟨h, by simp [Conveyor.start], by simp [Conveyor.start]⟩

theorem nodup_stock (h : Conserves items c) :
    ((c.taken : Multiset α) + c.offered.val + c.waiting).Nodup := by
  rw [h.stock]
  exact h.nodup

theorem not_offered (h : Conserves items c) {a : α} (ha : a ∈ c.taken) : a ∉ c.offered := by
  have hd := (Multiset.nodup_add.mp (Multiset.nodup_add.mp h.nodup_stock).1).2.2
  exact Multiset.disjoint_left.mp hd ha

theorem not_waiting (h : Conserves items c) {a : α} (ha : a ∈ c.offered) : a ∉ c.waiting := by
  have hd := (Multiset.nodup_add.mp h.nodup_stock).2.2
  exact Multiset.disjoint_left.mp hd (Multiset.mem_add.mpr (.inr ha))

theorem nodup_waiting (h : Conserves items c) : c.waiting.Nodup :=
  (Multiset.nodup_add.mp h.nodup_stock).2.1

/-- The items that do not wait are those on offer and those taken. -/
theorem stock_front (h : Conserves items c) (hf : items = front ++ c.waiting) :
    (c.taken : Multiset α) + c.offered.val = front := by
  have hs := h.stock
  rw [hf, ← Multiset.coe_add] at hs
  exact add_right_cancel hs

theorem releases_front (h : Conserves items c) (hf : items = front ++ c.waiting) :
    (c.called ++ c.quiet).Perm front := by
  have hr := h.releases
  rw [hf, ← Multiset.coe_add] at hr
  exact Multiset.coe_eq_coe.mp (add_right_cancel hr)

end Conserves

/-! ### Moves -/

variable [DecidableEq α] (c : Conveyor α)

/-- An item is taken, if it is on offer. -/
def take (a : α) : Conveyor α :=
  if a ∈ c.offered then { c with offered := c.offered.erase a, taken := c.taken ++ [a] } else c

/-- The next items are released. -/
def release (aloud : Bool) (count : ℕ) : Conveyor α :=
  { c with
    waiting := c.waiting.drop count
    offered := c.offered ∪ (c.waiting.take count).toFinset
    called := if aloud then c.called ++ c.waiting.take count else c.called
    quiet := if aloud then c.quiet else c.quiet ++ c.waiting.take count }

/-- What can happen at once: an item is taken, then others are released. -/
structure Turn (α : Type) where
  take : Option α := none
  aloud : Bool := true
  count : ℕ := 0

def turn (t : Turn α) : Conveyor α :=
  (t.take.elim c c.take).release t.aloud t.count

/-- The items a turn calls out. -/
def calls (t : Turn α) : List α :=
  if t.aloud then c.waiting.take t.count else []

variable (c : Conveyor α)

@[simp] theorem waiting_take (a : α) : (c.take a).waiting = c.waiting := by
  unfold take
  split <;> rfl

@[simp] theorem called_take (a : α) : (c.take a).called = c.called := by
  unfold take
  split <;> rfl

@[simp] theorem quiet_take (a : α) : (c.take a).quiet = c.quiet := by
  unfold take
  split <;> rfl

theorem release_zero (aloud : Bool) : c.release aloud 0 = c := by
  cases aloud <;> simp [release]

namespace Conserves

variable {items front : List α} {c : Conveyor α}

theorem take (h : Conserves items c) (a : α) : Conserves items (c.take a) := by
  unfold Conveyor.take
  split
  · rename_i ha
    refine ⟨h.nodup, ?_, h.releases⟩
    calc ((c.taken ++ [a] : List α) : Multiset α) + (c.offered.erase a).val + c.waiting
        = c.taken + (a ::ₘ c.offered.val.erase a) + c.waiting := by
          rw [← Multiset.coe_add, Finset.erase_val, ← Multiset.singleton_add]
          simp only [Multiset.coe_singleton, add_assoc]
      _ = c.taken + c.offered.val + c.waiting := by rw [Multiset.cons_erase ha]
      _ = items := h.stock
  · exact h

theorem disjoint_next (h : Conserves items c) (count : ℕ) :
    Disjoint c.offered (c.waiting.take count).toFinset := by
  rw [Finset.disjoint_left]
  intro a ha hn
  exact h.not_waiting ha (mem_of_mem_take (mem_toFinset.mp hn))

theorem card_release (h : Conserves items c) (count : ℕ) :
    (c.offered ∪ (c.waiting.take count).toFinset).card =
      c.offered.card + min count c.waiting.length := by
  rw [Finset.card_union_of_disjoint (h.disjoint_next count),
    toFinset_card_of_nodup (h.nodup_waiting.sublist (take_sublist _ _)),
    length_take]

theorem release (h : Conserves items c) (aloud : Bool) (count : ℕ) :
    Conserves items (c.release aloud count) := by
  have hw : (c.waiting : Multiset α) = c.waiting.take count + c.waiting.drop count := by
    rw [Multiset.coe_add, take_append_drop]
  have ho : (c.offered ∪ (c.waiting.take count).toFinset).val =
      c.offered.val + c.waiting.take count := by
    have hn : (c.waiting.take count).toFinset.val = c.waiting.take count := by
      rw [toFinset_val, (h.nodup_waiting.sublist (take_sublist _ _)).dedup]
    have hd := Finset.disjoint_val.mpr (h.disjoint_next count)
    rw [Finset.union_val, ← Multiset.add_eq_union_iff_disjoint.mpr hd, hn]
  refine ⟨h.nodup, ?_, ?_⟩
  · show (c.taken : Multiset α) + (c.offered ∪ _).val + c.waiting.drop count = items
    rw [ho, ← h.stock, hw]
    simp only [add_assoc]
  · rw [← h.releases, hw]
    cases aloud with
    | true =>
      simp only [Conveyor.release, if_true, ← Multiset.coe_add]
      abel
    | false =>
      simp only [Conveyor.release, Bool.false_eq_true, if_false, ← Multiset.coe_add]
      abel

/-- A turn puts on offer what it releases, and nothing else. -/
theorem fresh_iff (h : Conserves items c) (t : Turn α) (a : α) :
    a ∈ c.waiting.take t.count ↔ a ∈ (c.turn t).offered ∧ a ∉ c.offered := by
  have hsub : (t.take.elim c c.take).offered ⊆ c.offered := by
    cases t.take with
    | none => exact Finset.Subset.refl _
    | some b =>
      show (c.take b).offered ⊆ c.offered
      unfold Conveyor.take
      split
      · exact Finset.erase_subset b c.offered
      · exact Finset.Subset.refl _
  have hw : (t.take.elim c c.take).waiting = c.waiting := by
    cases t.take with
    | none => rfl
    | some b => exact c.waiting_take b
  have ho : (c.turn t).offered =
      (t.take.elim c c.take).offered ∪ (c.waiting.take t.count).toFinset := by
    rw [← hw]
    rfl
  rw [ho, Finset.mem_union, mem_toFinset]
  constructor
  · intro ha
    exact ⟨.inr ha, fun hoff => h.not_waiting hoff (mem_of_mem_take ha)⟩
  · rintro ⟨hold | hnew, hnot⟩
    · exact absurd (hsub hold) hnot
    · exact hnew

end Conserves

theorem turn_empty : c.turn {} = c := c.release_zero true

omit [DecidableEq α] in
theorem calls_empty : c.calls {} = [] := by simp [calls]

theorem called_turn (t : Turn α) : (c.turn t).called = c.called ++ c.calls t := by
  unfold turn release calls
  cases t.take <;> cases t.aloud <;> simp

theorem quiet_turn (t : Turn α) :
    (c.turn t).quiet = c.quiet ++ if t.aloud then [] else c.waiting.take t.count := by
  unfold turn release
  cases t.take <;> cases t.aloud <;> simp

/-- The item is somewhere on the conveyor. -/
def Has (a : α) : Prop := a ∈ c.taken ∨ a ∈ c.offered ∨ a ∈ c.waiting

theorem has_take {c : Conveyor α} {a b : α} (h : (c.take b).Has a) : c.Has a := by
  by_cases hb : b ∈ c.offered
  · simp only [take, if_pos hb, Has, mem_append, mem_singleton, Finset.mem_erase] at h
    rcases h with (h | rfl) | ⟨-, h⟩ | h
    · exact .inl h
    · exact .inr (.inl hb)
    · exact .inr (.inl h)
    · exact .inr (.inr h)
  · simpa only [take, if_neg hb] using h

theorem has_release {c : Conveyor α} {a : α} {aloud : Bool} {count : ℕ}
    (h : (c.release aloud count).Has a) : c.Has a := by
  simp only [release, Has, Finset.mem_union, mem_toFinset] at h
  rcases h with h | (h | h) | h
  · exact .inl h
  · exact .inr (.inl h)
  · exact .inr (.inr (mem_of_mem_take h))
  · exact .inr (.inr (mem_of_mem_drop h))

theorem has_turn {c : Conveyor α} {t : Turn α} {a : α} (h : (c.turn t).Has a) : c.Has a := by
  have hr := has_release h
  rcases ht : t.take with _ | b
  · rwa [ht] at hr
  · rw [ht] at hr
    exact has_take hr

end Conveyor
end Ptpsim
