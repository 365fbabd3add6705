/-
# Auxiliary descriptors

The engine counts the descriptors of auxiliary connections: those it manages
and can close again, and all that are in use, with the ones that leaked. A
budget bounds them. Opening, leaking and closing keep the counts in order, and
so does a reset. An overlay that shrinks the budget clamps the number in use,
but not the number of those that are managed: it keeps the order only if the
new budget still covers them.
-/
import Ptpsim.Sim.Run

namespace Ptpsim.Sim

open Ptpsim.Core Config Fallible Store

/-- The calls that count auxiliary descriptors. -/
def Call.isAux : Call → Bool
  | auxManagedOpen | auxOrphanLeak | auxManagedClose | auxResetState | applyStateOverlay _ => true
  | _ => false

namespace Engine

/-- No more descriptors are managed than in use, and no more in use than the
budget allows; without a budget there are none. -/
structure AuxOrdered (e : Engine) : Prop where
  managed : e.auxManagedUsed ≤ e.auxDescriptorUsed
  used : e.auxDescriptorUsed ≤ e.auxDescriptorBudget.getD 0

instance (e : Engine) : Decidable e.AuxOrdered :=
  decidable_of_iff
    (e.auxManagedUsed ≤ e.auxDescriptorUsed ∧ e.auxDescriptorUsed ≤ e.auxDescriptorBudget.getD 0)
    ⟨fun h => ⟨h.1, h.2⟩, fun h => ⟨h.managed, h.used⟩⟩

/-- An overlay with a new budget leaves room for the descriptors that are
managed, or resets the counts. -/
def budgetCovers (e : Engine) : Call → Bool
  | .applyStateOverlay overlay =>
    overlay.auxReset.getD false ||
      overlay.auxDescriptorBudget.all fun budget => e.auxManagedUsed ≤ budget
  | _ => true

variable {e : Engine}

/-- Both ways to take a descriptor are open below the budget only. -/
theorem AuxOrdered.take (h : e.AuxOrdered) {budget managed : UInt32}
    (hb : e.auxDescriptorBudget = some budget) (hr : ¬ e.auxDescriptorUsed ≥ budget)
    (hm : managed.toNat ≤ e.auxManagedUsed.toNat + 1) :
    AuxOrdered { e with
      auxDescriptorUsed := e.auxDescriptorUsed + 1
      auxManagedUsed := managed } := by
  have hlt := UInt32.lt_iff_toNat_lt.mp (UInt32.not_le.mp hr)
  have hs : (e.auxDescriptorUsed + 1).toNat = e.auxDescriptorUsed.toNat + 1 := by
    have hl := budget.toNat_lt
    exact Nat.mod_eq_of_lt (by simp; omega)
  have hle := UInt32.le_iff_toNat_le.mp h.managed
  constructor
  all_goals simp only [hb, Option.getD_some, UInt32.le_iff_toNat_le, hs]
  · omega
  · exact hlt

theorem auxOrphanLeak_ordered (h : e.AuxOrdered) {next : Engine} (hn : e.auxOrphanLeak = .ok next) :
    next.AuxOrdered := by
  unfold auxOrphanLeak at hn
  split at hn
  · cases hn
  case h_2 budget hb =>
    obtain ⟨hr, ⟨⟩⟩ := guard_eq_ok_iff.mp hn
    exact h.take hb hr (Nat.le_succ _)

theorem auxManagedOpen_ordered (h : e.AuxOrdered) {descriptor : UInt64} {next : Engine}
    (hn : e.auxManagedOpen = .ok (descriptor, next)) : next.AuxOrdered := by
  unfold auxManagedOpen at hn
  split at hn
  · cases hn
  case h_2 budget hb =>
    obtain ⟨hr, ⟨⟩⟩ := guard_eq_ok_iff.mp hn
    exact h.take hb hr (Nat.mod_le _ _)

theorem auxManagedClose_ordered (h : e.AuxOrdered) {next : Engine}
    (hne : e.auxManagedClose = .ok next) : next.AuxOrdered := by
  obtain ⟨hs, ⟨⟩⟩ := guard_eq_ok_iff.mp hne
  have hm := UInt32.le_iff_toNat_le.mp h.managed
  have hpos : 0 < e.auxManagedUsed.toNat := Nat.pos_of_ne_zero fun hz => hs (UInt32.toNat_inj.mp hz)
  have hp : ∀ n : UInt32, 0 < n.toNat → (n - 1).toNat = n.toNat - 1 := fun n hn =>
    UInt32.toNat_sub_of_le n 1 (UInt32.le_iff_toNat_le.mpr hn)
  have hu : e.auxDescriptorUsed ≠ 0 := by
    intro hz
    rw [hz] at hm
    simp at hm
    omega
  constructor
  all_goals simp only [hu, if_false]
  · rw [UInt32.le_iff_toNat_le, hp _ hpos, hp _ (by omega)]
    omega
  · refine UInt32.le_trans (UInt32.le_iff_toNat_le.mpr ?_) h.used
    rw [hp _ (by omega)]
    omega

theorem applyStateOverlay_ordered (h : e.AuxOrdered) {overlay : StateOverlay}
    (hc : e.budgetCovers (.applyStateOverlay overlay) = true) {applied : AppliedStateOverlay}
    {next : Engine} (hn : e.applyStateOverlay overlay = .ok (applied, next)) :
    next.AuxOrdered := by
  obtain ⟨staged, -, hn⟩ := bind_eq_ok_iff.mp hn
  cases hn
  cases hr : overlay.auxReset.getD false with
  | true => exact ⟨by simp, by simp⟩
  | false =>
    simp only [budgetCovers, hr, Bool.false_or] at hc
    rcases hb : overlay.auxDescriptorBudget with _ | budget
    · exact ⟨by simpa [hr, hb] using h.managed, by simpa [hr, hb] using h.used⟩
    · have hco : e.auxManagedUsed ≤ budget := by simpa [hb] using hc
      by_cases hs : e.auxDescriptorUsed > budget
      · exact ⟨by simpa [hr, hb, hs] using hco, by simp [hs]⟩
      · refine ⟨by simpa [hr, hb, hs] using h.managed, ?_⟩
        simpa [hr, hb, hs] using UInt32.not_lt.mp hs

theorem aux_step {call : Call} (haux : call.isAux = true) (hc : e.budgetCovers call = true)
    (h : e.AuxOrdered) : (e.step call).2.AuxOrdered := by
  cases call with
  | auxOrphanLeak => exact settled_of h fun _ => auxOrphanLeak_ordered h
  | auxManagedOpen => exact settled_map h fun _ _ => auxManagedOpen_ordered h
  | auxManagedClose => exact settled_of h fun _ => auxManagedClose_ordered h
  | auxResetState => exact ⟨UInt32.le_refl 0, by simp [step, auxResetState]⟩
  | applyStateOverlay overlay =>
    exact settled_map h fun _ _ => applyStateOverlay_ordered h hc
  | _ => cases haux

end Engine

/-- **The counts stay in order.** In every sequence of opens, leaks, closes,
resets and overlays whose budgets cover what is managed, no more descriptors
are managed than in use and no more in use than the budget. -/
theorem aux_descriptors_ordered (manifest : CameraManifest) (store : MediaStore) (calls : List Call)
    (haux : ∀ call ∈ calls, call.isAux = true)
    (hcovers : Machine.Along Engine.step (fun e call => e.budgetCovers call = true)
      (Engine.new manifest store) calls) :
    ∀ reached, reached <+: calls →
      (Machine.run Engine.step (Engine.new manifest store) reached).AuxOrdered := by
  intro reached hr
  obtain ⟨rest, rfl⟩ := hr
  have haux' : ∀ call ∈ reached, call.isAux = true := fun call hc =>
    haux call (List.mem_append_left rest hc)
  have ha := (Machine.Along.of_append Engine.step hcovers).and_mem Engine.step haux'
  refine Machine.Along.run_invariant Engine.step (fun e call h => Engine.aux_step h.1 h.2) _ _ ha ?_
  exact ⟨UInt32.le_refl 0, UInt32.le_refl 0⟩

/-- Two managed descriptors and a leaked one, of which a managed one is closed;
the budget shrinks to what is in use. -/
def managedRun : List Call :=
  [.applyStateOverlay { auxDescriptorBudget := some 3 }, .auxManagedOpen, .auxManagedOpen,
    .auxOrphanLeak, .auxManagedClose, .applyStateOverlay { auxDescriptorBudget := some 1 }]

theorem aux_descriptors_ordered_shrunk :
    (Machine.run Engine.step (Engine.new { camera := ⟨"", "", "", []⟩ } emptyCard)
      managedRun).AuxOrdered :=
  aux_descriptors_ordered { camera := ⟨"", "", "", []⟩ } emptyCard managedRun (by decide +kernel)
    (by decide +kernel) managedRun (List.prefix_refl managedRun)

/-- Two descriptors are managed when the budget shrinks to one: then more are
managed than in use, and closing them frees the place of one that leaked in
the meantime. -/
theorem aux_managed_exceeds_used :
    let shrunk := Machine.run Engine.step (Engine.new { camera := ⟨"", "", "", []⟩ } emptyCard)
      [.applyStateOverlay { auxDescriptorBudget := some 2 }, .auxManagedOpen, .auxManagedOpen,
        .applyStateOverlay { auxDescriptorBudget := some 1 }]
    let closed := Machine.run Engine.step shrunk
      [.applyStateOverlay { auxDescriptorBudget := some 2 }, .auxOrphanLeak, .auxManagedClose,
        .auxManagedClose]
    shrunk.auxManagedUsed = 2 ∧ shrunk.auxDescriptorUsed = 1 ∧ closed.auxDescriptorUsed = 0 := by
  decide +kernel

end Ptpsim.Sim
