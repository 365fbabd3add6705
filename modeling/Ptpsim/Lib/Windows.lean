/-
# A total in windows

Work on a total is done window by window, as often as a cap allows, and each
window stands in two slots while the work on it goes on. The windows lie end to
end (`exists_windows`), and work that ends, with a failure or without, leaves
the slots as they were (`kept_inWindow`).
-/
import Ptpsim.Lib.Interrupt
import Mathlib.Order.MinMax

namespace Ptpsim.Windows

open Interrupt

variable {ε κ σ α ν : Type} {total window offset : UInt64}

/-- The windows from `offset` on; `late` if the cap is reached before the
total, `done` otherwise. -/
def chunk (total window : UInt64) (piece : ℕ → UInt64 × UInt64 → Exec ε κ σ α)
    (late done : ℕ → α → Exec ε κ σ α) : ℕ → UInt64 → ℕ → α → Exec ε κ σ α
  | 0, offset, index, last => if offset < total then late index last else done index last
  | left + 1, offset, index, last =>
    if offset < total then
      piece index (offset, min (total - offset) window) >>=
        chunk total window piece late done left (offset + min (total - offset) window) (index + 1)
    else done index last

/-- One after the other from `start` to `stop`, none empty or too long. -/
def Tiles (window : ℕ) : ℕ → List (UInt64 × UInt64) → ℕ → Prop
  | start, [], stop => start = stop
  | start, w :: ws, stop => w.1.toNat = start ∧ 1 ≤ w.2.toNat ∧ w.2.toNat ≤ window ∧
      Tiles window (start + w.2.toNat) ws stop

/-- A window ends with the total at the latest, so no offset wraps. -/
theorem toNat_window (window : UInt64) (h : offset < total) :
    (min (total - offset) window).toNat = min (total.toNat - offset.toNat) window.toNat ∧
    (offset + min (total - offset) window).toNat =
      offset.toNat + (min (total - offset) window).toNat := by
  have hl : (min (total - offset) window).toNat =
      min (total.toNat - offset.toNat) window.toNat := by
    rw [← UInt64.toNat_sub_of_le _ _ (UInt64.le_of_lt h)]
    change (if _ ≤ _ then _ else _ : UInt64).toNat = _
    simp only [UInt64.le_iff_toNat_le]
    split
    all_goals omega
  have ht := total.toNat_lt
  rw [UInt64.lt_iff_toNat_lt] at h
  exact ⟨hl, by rw [UInt64.toNat_add, hl]; omega⟩

theorem max_one (w : UInt64) : 1 ≤ (max w 1).toNat ∧ (w ≠ 0 → max w 1 = w) := by
  change 1 ≤ (if w ≤ 1 then 1 else w : UInt64).toNat ∧ (w ≠ 0 → (if w ≤ 1 then 1 else w) = w)
  simp only [UInt64.le_iff_toNat_le, ← UInt64.toNat_inj, ne_eq, UInt64.toNat_zero, UInt64.toNat_one]
  split
  all_goals grind

/-- What the loop does is the work on windows that lie end to end. -/
theorem exists_windows (total : UInt64) (hw : 1 ≤ window.toNat) :
    ∀ (left : ℕ) (offset : UInt64) (index : ℕ), offset.toNat ≤ total.toNat →
    ∃ ws, Tiles window.toNat offset.toNat ws
      (min total.toNat (offset.toNat + left * window.toNat)) ∧
      ∀ {ε κ σ α : Type} (piece : ℕ → UInt64 × UInt64 → Exec ε κ σ α)
        (late done : ℕ → α → Exec ε κ σ α) (last : α),
        chunk total window piece late done left offset index last =
          (ws.zipIdx index).foldlM (fun _ w => piece w.2 w.1) last >>=
            (if offset.toNat + left * window.toNat < total.toNat then late else done)
              (index + ws.length)
  | 0, offset, index, h => by
    refine ⟨[], by simp [Tiles, h], fun piece late done last => ?_⟩
    simp only [chunk, UInt64.lt_iff_toNat_lt, Nat.zero_mul, Nat.add_zero]
    split
    all_goals rfl
  | left + 1, offset, index, h => by
    by_cases hlt : offset < total
    · obtain ⟨hl, hn⟩ := toNat_window window hlt
      rw [UInt64.lt_iff_toNat_lt] at hlt
      obtain ⟨ws, ht, he⟩ := exists_windows total hw left (offset + min (total - offset) window)
        (index + 1) (by omega)
      refine ⟨(offset, min (total - offset) window) :: ws,
        ⟨rfl, hl ▸ by omega, hl ▸ Nat.min_le_right _ _, ?_⟩, fun piece late done last => ?_⟩
      · rw [hn] at ht
        convert ht using 1
        rw [Nat.succ_mul]
        omega
      · have hs : offset.toNat + (left + 1) * window.toNat < total.toNat ↔
            (offset + min (total - offset) window).toNat + left * window.toNat < total.toNat := by
          rw [Nat.succ_mul]
          omega
        rw [chunk, if_pos (UInt64.lt_iff_toNat_lt.mpr hlt), List.zipIdx_cons, List.foldlM_cons,
          bind_assoc, List.length_cons, Nat.add_comm ws.length, ← Nat.add_assoc, if_congr hs
            rfl rfl]
        exact congrArg _ (funext fun a => he piece late done a)
    · refine ⟨[], ?_, fun piece late done last => ?_⟩
      all_goals rw [UInt64.lt_iff_toNat_lt] at hlt
      · change offset.toNat = _
        omega
      · rw [chunk, if_neg (mt UInt64.lt_iff_toNat_lt.mp hlt), if_neg (by omega)]
        rfl

theorem kept_chunk {R : σ → Option (Stop ε κ) → σ → Prop} (h : Composes R)
    {piece : ℕ → UInt64 × UInt64 → Exec ε κ σ α} {late done : ℕ → α → Exec ε κ σ α}
    (hp : ∀ index w, Kept R (piece index w)) (ho : ∀ index last, Kept R (late index last))
    (hd : ∀ index last, Kept R (done index last)) : ∀ left offset index last,
    Kept R (chunk total window piece late done left offset index last)
  | 0, _, index, last => .ite (fun _ => ho index last) fun _ => hd index last
  | left + 1, _, index, last => .ite
    (fun _ => .bind h (hp index _) (kept_chunk h hp ho hd left _ (index + 1))) fun _ =>
      hd index last

/-! ### Slots -/

structure Slots (σ ν : Type) where
  read : σ → String → Option ν
  put : σ → String → Option ν → σ
  read_put : ∀ s slot v, read (put s slot v) = Function.update (read s) slot v

variable (b : Slots σ ν) (word : UInt64 → ν) (offsetBind lengthBind : String)

def inWindow (body : Exec ε κ σ α) (w : UInt64 × UInt64) : Exec ε κ σ α := do
  let oldOffset := b.read (← get) offsetBind
  modify fun s => b.put s offsetBind (some (word w.1))
  let oldLength := b.read (← get) lengthBind
  modify fun s => b.put s lengthBind (some (word w.2))
  let result ← attempt body
  modify fun s => b.put (b.put s offsetBind oldOffset) lengthBind oldLength
  match result with
  | .ok a => pure a
  | .error e => throw (.failed e)

def sweep (body : ℕ → Exec ε κ σ α) (ws : List (UInt64 × UInt64)) (last : α) : Exec ε κ σ α :=
  ws.zipIdx.foldlM (fun _ w => inWindow b word offsetBind lengthBind (body w.2) w.1) last

/-- Both slots are as they were, unless the work was dropped. -/
def PutsBack (s : σ) (o : Option (Stop ε κ)) (s' : σ) : Prop :=
  (∀ stop, o = some stop → ∃ e, stop = .failed e) →
    b.read s' offsetBind = b.read s offsetBind ∧ b.read s' lengthBind = b.read s lengthBind

theorem composes_putsBack : Composes (ε := ε) (κ := κ) (PutsBack b offsetBind lengthBind) where
  refl _ _ := ⟨rfl, rfl⟩
  trans h₁ h₂ ho := by
    obtain ⟨h₁, h₁'⟩ := h₁ nofun
    obtain ⟨h₂, h₂'⟩ := h₂ ho
    exact ⟨h₂.trans h₁, h₂'.trans h₁'⟩

variable {offsetBind lengthBind}

theorem kept_inWindow (hn : offsetBind ≠ lengthBind) (body : Exec ε κ σ α) (w : UInt64 × UInt64) :
    Kept (PutsBack b offsetBind lengthBind) (inWindow b word offsetBind lengthBind body w) := by
  intro s
  have hb : ∀ s' : σ, b.read (b.put (b.put s' offsetBind (b.read s offsetBind)) lengthBind
        (b.read (b.put s offsetBind (some (word w.1))) lengthBind)) offsetBind =
          b.read s offsetBind ∧
      b.read (b.put (b.put s' offsetBind (b.read s offsetBind)) lengthBind
        (b.read (b.put s offsetBind (some (word w.1))) lengthBind)) lengthBind =
          b.read s lengthBind :=
    fun s' => by simp [b.read_put, hn, hn.symm]
  exact attempt_bind_cases
    (P := fun r => PutsBack b offsetBind lengthBind s (ending r) (final r)) (fun _ s' _ _ => hb s')
    (fun _ s' _ _ => hb s') fun e _ _ hs ho => (ho e rfl).elim fun error he => absurd he (hs error)

end Ptpsim.Windows
