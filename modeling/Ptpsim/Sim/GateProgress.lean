/-
# How the gates follow the operations

Every gate sequence has one counter. An operation continues a sequence that is
under way, or starts it again from its first step, and a start forgets what
the other sequences of the gate had come to. So a counter always stands for
steps that the last operations fit (`Sound`).

The converse needs a condition on the operation. One counter cannot stand for
two prefixes of a sequence, nor two sequences of a gate be under way when a
third is started: the counters follow what the last operations fit (`Tracked`)
as long as an operation starts or continues the sequences of a gate in at most
one way, or completes one of them (`Followable`).
-/
import Ptpsim.Lib.SequenceMatch
import Ptpsim.Sim.Dispatch

namespace Ptpsim.Sim

open Config SequenceMatch List

variable {f : GateMatcher → Bool} {g : SequenceGates} {i : ℕ} {s : GateSequence}

/-- The operation fits the first step of the sequence. -/
def starts (f : GateMatcher → Bool) (s : GateSequence) : Bool := s.steps.head?.any f

/-- The sequence is under way, and the operation fits its next step. -/
def continues (f : GateMatcher → Bool) (g : SequenceGates) (i : ℕ) (s : GateSequence) : Bool :=
  0 < g.gateProgress s.name i && (s.steps[g.gateProgress s.name i]?).any f

theorem starts_iff : starts f s = true ↔ ∃ m, s.steps[0]? = some m ∧ f m = true := by
  rw [starts, ← List.head?_eq_getElem?, Option.any_eq_true]

theorem continues_iff : continues f g i s = true ↔ 0 < g.gateProgress s.name i ∧
    ∃ m, s.steps[g.gateProgress s.name i]? = some m ∧ f m = true := by
  rw [continues, Bool.and_eq_true, decide_eq_true_eq, Option.any_eq_true]

/-! ### One sequence sees one operation -/

variable (g s) in
@[simp] theorem gateSatisfied_advanceGateProgress (i p : ℕ) (name : String) :
    (advanceGateProgress g s i p).gateSatisfied name =
      if name = s.name ∧ s.steps.length ≤ p then true else g.gateSatisfied name := by
  unfold advanceGateProgress
  by_cases hp : s.steps.length ≤ p <;> simp [hp]

variable (g s) in
@[simp] theorem gateProgress_advanceGateProgress (i p : ℕ) (name : String) (j : ℕ) :
    (advanceGateProgress g s i p).gateProgress name j =
      if name = s.name ∧ j = i then (if s.steps.length ≤ p then 0 else p)
      else g.gateProgress name j := by
  unfold advanceGateProgress
  by_cases hp : s.steps.length ≤ p <;> simp [hp]

/-- What a sequence makes of an operation. -/
inductive Sees (f : GateMatcher → Bool) (i : ℕ) (s : GateSequence) (g g' : SequenceGates) : Prop
  | satisfied (hsat : g.gateSatisfied s.name = true) (heq : g' = g)
  | continued (hsat : g.gateSatisfied s.name = false) (hcont : continues f g i s = true)
      (heq : g' = advanceGateProgress g s i (g.gateProgress s.name i + 1))
  | started (hsat : g.gateSatisfied s.name = false) (hcont : continues f g i s = false)
      (hstart : starts f s = true) (heq : g' = advanceGateProgress (g.clearGate s.name) s i 1)
  | passed (hsat : g.gateSatisfied s.name = false) (hcont : continues f g i s = false)
      (hstart : starts f s = false) (hsame : ∀ name, g'.gateSatisfied name = g.gateSatisfied name)
      (hprogress : ∀ name j, g'.gateProgress name j =
        if name = s.name ∧ j = i then 0 else g.gateProgress name j)

variable (f i s) in
theorem advanceSequence_sees (g : SequenceGates) : Sees f i s g (advanceSequence f i s g) := by
  cases hsat : g.gateSatisfied s.name with
  | true => exact .satisfied hsat (by rw [advanceSequence, if_pos hsat])
  | false =>
    have hiff : (0 < g.gateProgress s.name i ∧
        (s.steps[g.gateProgress s.name i]?).any f = true) ↔ continues f g i s = true := by
      rw [continues, Bool.and_eq_true, decide_eq_true_eq]
    have hu : ¬ g.gateSatisfied s.name = true := by simp [hsat]
    cases hc : continues f g i s with
    | true =>
      refine .continued hsat hc ?_
      rw [advanceSequence, if_neg hu]
      exact if_pos (hiff.mpr hc)
    | false =>
      have hn : advanceSequence f i s g =
          let g := if 0 < g.gateProgress s.name i then g.setGateProgress s.name i 0 else g
          if starts f s then advanceGateProgress (g.clearGate s.name) s i 1 else g := by
        rw [advanceSequence, if_neg hu]
        exact if_neg (mt hiff.mp (by simp [hc]))
      cases hs : starts f s with
      | true =>
        refine .started hsat hc hs ?_
        rw [hn, hs]
        -- the counter that fell back is cleared with the others
        by_cases hp : 0 < g.gateProgress s.name i <;>
          simp [hp, SequenceGates.clearGate, SequenceGates.setGateProgress]
      | false =>
        rw [hs] at hn
        simp only [Bool.false_eq_true, if_false] at hn
        rw [hn]
        refine .passed hsat hc hs (fun name => ?_) fun name j => ?_
        · split <;> simp
        · split
          · simp
          · rename_i hz
            split
            · rename_i hkey
              rw [hkey.1, hkey.2]
              omega
            · rfl

variable {name : String} {j : ℕ}

theorem advanceSequence_mono (h : g.gateSatisfied name = true) :
    (advanceSequence f i s g).gateSatisfied name = true := by
  cases advanceSequence_sees f i s g with
  | satisfied _ heq => rwa [heq]
  | continued _ _ heq =>
    rw [heq, gateSatisfied_advanceGateProgress, h, ite_self]
  | started hsat _ _ heq =>
    have hne : name ≠ s.name := by
      rintro rfl
      rw [h] at hsat
      cases hsat
    rw [heq]
    simp [hne, h]
  | passed _ _ _ hs _ => rw [hs, h]

theorem advanceSequence_other (h : ¬ (name = s.name ∧ j = i)) :
    (advanceSequence f i s g).gateProgress name j = g.gateProgress name j ∨
      ((advanceSequence f i s g).gateProgress name j = 0 ∧ name = s.name ∧ starts f s = true) := by
  cases advanceSequence_sees f i s g with
  | satisfied _ heq => exact .inl (by rw [heq])
  | continued _ _ heq => exact .inl (by rw [heq, gateProgress_advanceGateProgress, if_neg h])
  | started _ _ hs heq =>
    rw [heq, gateProgress_advanceGateProgress, if_neg h, SequenceGates.gateProgress_clearGate]
    by_cases hn : name = s.name
    · exact .inr ⟨if_pos hn, hn, hs⟩
    · exact .inl (if_neg hn)
  | passed _ _ _ _ hp => exact .inl (by rw [hp, if_neg h])

theorem advanceSequence_quiet (h : s.name = name → starts f s = false ∧ continues f g i s = false) :
    (advanceSequence f i s g).gateSatisfied name = g.gateSatisfied name := by
  cases advanceSequence_sees f i s g with
  | satisfied _ heq => rw [heq]
  | continued _ hc heq =>
    have hne : name ≠ s.name := by
      rintro rfl
      rw [(h rfl).2] at hc
      cases hc
    rw [heq]
    simp [hne]
  | started _ _ hs heq =>
    have hne : name ≠ s.name := by
      rintro rfl
      rw [(h rfl).1] at hs
      cases hs
    rw [heq]
    simp [hne]
  | passed _ _ _ hsa _ => exact hsa name

theorem advanceSequence_event {v : ℕ} (hsat : g.gateSatisfied s.name = false)
    (hv : continues f g i s = true ∧ v = g.gateProgress s.name i + 1 ∨
      continues f g i s = false ∧ starts f s = true ∧ v = 1) :
    (advanceSequence f i s g).gateSatisfied s.name = true ∨
      v < s.steps.length ∧ (advanceSequence f i s g).gateProgress s.name i = v := by
  have ha : ∀ g₁ : SequenceGates,
      (advanceGateProgress g₁ s i v).gateSatisfied s.name = true ∨
        v < s.steps.length ∧ (advanceGateProgress g₁ s i v).gateProgress s.name i = v := by
    intro g₁
    by_cases hlen : s.steps.length ≤ v
    · exact .inl (by simp [hlen])
    · exact .inr ⟨not_le.mp hlen, by simp [hlen]⟩
  cases advanceSequence_sees f i s g with
  | satisfied hsat' _ => simp [hsat] at hsat'
  | continued _ hc heq =>
    rcases hv with ⟨-, rfl⟩ | ⟨hnot, -⟩
    · rw [heq]
      exact ha g
    · simp [hc] at hnot
  | started _ hc _ heq =>
    rcases hv with ⟨hc', -⟩ | ⟨-, -, rfl⟩
    · simp [hc] at hc'
    · rw [heq]
      exact ha _
  | passed _ hc hs _ _ => simp [hc, hs] at hv

/-! ### Counters stand for what was seen -/

section Sound

variable {ι : Type} (fits : GateMatcher → ι → Bool) (sequences : List GateSequence)

/-- A counter stands for steps that the last operations fit, and a satisfied
gate has seen one of its sequences. The counters of a satisfied gate are not
kept up to date. -/
structure Sound (hist : List ι) (g : SequenceGates) : Prop where
  progress : ∀ (i : ℕ) (s : GateSequence), sequences[i]? = some s → g.gateSatisfied s.name = false →
    EndsWith fits hist (s.steps.take (g.gateProgress s.name i))
  satisfied : ∀ name, g.gateSatisfied name = true →
    ∃ s ∈ sequences, s.name = name ∧ Contains fits hist s.steps

/-- The same while an operation is handed from sequence to sequence: the first
`k` have seen it. -/
structure SoundUpTo (hist : List ι) (x : ι) (k : ℕ) (g : SequenceGates) : Prop where
  seen : ∀ (i : ℕ) (s : GateSequence), i < k → sequences[i]? = some s →
    g.gateSatisfied s.name = false →
    EndsWith fits (hist ++ [x]) (s.steps.take (g.gateProgress s.name i))
  unseen : ∀ (i : ℕ) (s : GateSequence), k ≤ i → sequences[i]? = some s →
    g.gateSatisfied s.name = false →
    EndsWith fits hist (s.steps.take (g.gateProgress s.name i))
  satisfied : ∀ name, g.gateSatisfied name = true →
    ∃ s ∈ sequences, s.name = name ∧ Contains fits (hist ++ [x]) s.steps

variable {fits sequences} {hist : List ι} {x : ι}

theorem advanceSequence_endsWith (hend : g.gateSatisfied s.name = false →
      EndsWith fits hist (s.steps.take (g.gateProgress s.name i))) :
    ((advanceSequence (fun m => fits m x) i s g).gateSatisfied s.name = false →
      EndsWith fits (hist ++ [x])
        (s.steps.take ((advanceSequence (fun m => fits m x) i s g).gateProgress s.name i))) ∧
    ∀ name, (advanceSequence (fun m => fits m x) i s g).gateSatisfied name = true →
      g.gateSatisfied name = true ∨ name = s.name ∧ EndsWith fits (hist ++ [x]) s.steps := by
  -- a counter that is moved to a prefix the operations fit
  have hmo : ∀ (g₁ : SequenceGates) (v : ℕ), EndsWith fits (hist ++ [x]) (s.steps.take v) →
      (∀ name, g₁.gateSatisfied name = true → g.gateSatisfied name = true) →
      ((advanceGateProgress g₁ s i v).gateSatisfied s.name = false → EndsWith fits (hist ++ [x])
        (s.steps.take ((advanceGateProgress g₁ s i v).gateProgress s.name i))) ∧
      ∀ name, (advanceGateProgress g₁ s i v).gateSatisfied name = true →
        g.gateSatisfied name = true ∨ name = s.name ∧ EndsWith fits (hist ++ [x]) s.steps := by
    intro g₁ v hv hg₁
    by_cases hlen : s.steps.length ≤ v
    · rw [take_of_length_le hlen] at hv
      refine ⟨fun hsat => by simp [hlen] at hsat, fun name hsat => ?_⟩
      by_cases hn : name = s.name
      · exact .inr ⟨hn, hv⟩
      · exact .inl (hg₁ name (by simpa [hn] using hsat))
    · refine ⟨fun _ => by simpa [hlen] using hv, fun name hsat => .inl (hg₁ name ?_)⟩
      simpa [hlen] using hsat
  cases advanceSequence_sees (fun m => fits m x) i s g with
  | satisfied hsat heq =>
    rw [heq]
    exact ⟨fun hu => by simp [hsat] at hu, fun name h => .inl h⟩
  | continued hsat hc heq =>
    obtain ⟨-, m, hm, hf⟩ := continues_iff.mp hc
    rw [heq]
    exact hmo g _ ((endsWith_take_succ hm).mpr ⟨hend hsat, hf⟩) fun _ h => h
  | started hsat hc hst heq =>
    obtain ⟨m, hm, hf⟩ := starts_iff.mp hst
    rw [heq]
    refine hmo _ 1 ((endsWith_take_succ hm).mpr ⟨.nil hist, hf⟩) fun name h => ?_
    rw [SequenceGates.gateSatisfied_clearGate] at h
    split at h
    · cases h
    · exact h
  | passed _ _ _ hs hp =>
    rw [hp, if_pos ⟨rfl, rfl⟩]
    exact ⟨fun _ => .nil _, fun name h => .inl (hs name ▸ h)⟩

theorem endsWith_other {h : List ι} {t : GateSequence} {j : ℕ} (hne : ¬ (t.name = s.name ∧ j = i))
    (hend : g.gateSatisfied t.name = false →
      EndsWith fits h (t.steps.take (g.gateProgress t.name j)))
    (hu : (advanceSequence f i s g).gateSatisfied t.name = false) :
    EndsWith fits h (t.steps.take ((advanceSequence f i s g).gateProgress t.name j)) := by
  have hb : g.gateSatisfied t.name = false := by
    by_contra hsat
    rw [advanceSequence_mono (by simpa using hsat)] at hu
    cases hu
  rcases advanceSequence_other (f := f) (g := g) hne with heq | ⟨heq, -, -⟩
  · rw [heq]
    exact hend hb
  · rw [heq]
    exact .nil h

theorem SoundUpTo.step {k : ℕ} (h : SoundUpTo fits sequences hist x k g)
    (hs : sequences[k]? = some s) :
    SoundUpTo fits sequences hist x (k + 1) (advanceSequence (fun m => fits m x) k s g) := by
  obtain ⟨hown, hsat⟩ := advanceSequence_endsWith (x := x) (h.unseen k s le_rfl hs)
  refine ⟨fun j t hj ht hu => ?_, fun j t hj ht hu => ?_, fun name hn => ?_⟩
  · by_cases hjk : j = k
    · subst hjk
      cases hs.symm.trans ht
      exact hown hu
    · exact endsWith_other (fun hkey => hjk hkey.2) (h.seen j t (by omega) ht) hu
  · exact endsWith_other (fun hkey => by omega) (h.unseen j t (by omega) ht) hu
  · rcases hsat name hn with hold | ⟨rfl, he⟩
    · exact h.satisfied name hold
    · exact ⟨s, mem_of_getElem? hs, rfl, he.contains⟩

/-- The sequences from `k` on see the operation one by one. -/
theorem SoundUpTo.advanceFrom (rest : List GateSequence) {k : ℕ}
    (h : SoundUpTo fits sequences hist x k g) (hr : sequences.drop k = rest) :
    SoundUpTo fits sequences hist x (k + rest.length)
      (advanceFrom (fun m => fits m x) k rest g) := by
  induction rest generalizing k g with
  | nil => exact h
  | cons s rest ih =>
    have hs : sequences[k]? = some s := by
      rw [← List.head?_drop, hr]
      rfl
    have hd : sequences.drop (k + 1) = rest := by
      rw [← tail_drop, hr]
      rfl
    have hn := ih (h.step hs) hd
    rwa [length_cons, Nat.add_comm rest.length, ← Nat.add_assoc]

/-- **An operation keeps the counters sound.** -/
theorem Sound.advance (h : Sound fits sequences hist g) (x : ι) :
    Sound fits sequences (hist ++ [x]) (advanceSequenceGates (fun m => fits m x) sequences g) := by
  have hst : SoundUpTo fits sequences hist x 0 g := by
    refine ⟨fun i s hi => absurd hi (Nat.not_lt_zero i), fun i s _ => h.progress i s,
      fun name hsat => ?_⟩
    obtain ⟨s, hs, hn, hc⟩ := h.satisfied name hsat
    exact ⟨s, hs, hn, hc.append [x]⟩
  have hend := hst.advanceFrom sequences rfl
  rw [Nat.zero_add] at hend
  refine ⟨fun i s hs => hend.seen i s ?_ hs, hend.satisfied⟩
  exact (List.getElem?_eq_some_iff.mp hs).1

theorem Sound.empty : Sound fits sequences [] {} where
  progress := fun i s _ _ => .nil []
  satisfied := fun name hsat => by simp at hsat

end Sound

/-! ### Operations the counters can follow -/

/-- In how many ways the operation starts or continues a sequence of the gate,
counted from sequence `i` on. -/
def eventsFrom (f : GateMatcher → Bool) (g : SequenceGates) (name : String) :
    ℕ → List GateSequence → ℕ
  | _, [] => 0
  | i, s :: rest =>
    (if s.name = name then (starts f s).toNat + (continues f g i s).toNat else 0) +
      eventsFrom f g name (i + 1) rest

/-- The operation alone is a whole sequence of the gate. -/
def CompletesAlone (f : GateMatcher → Bool) (sequences : List GateSequence) (name : String) :
    Prop :=
  ∃ s ∈ sequences, s.name = name ∧ s.steps.length = 1 ∧ starts f s = true

/-- The operation completes a sequence of the gate that is under way, and
starts none of those listed before it. -/
def CompletesFirst (f : GateMatcher → Bool) (sequences : List GateSequence) (g : SequenceGates)
    (name : String) : Prop :=
  ∃ p ∈ sequences.zipIdx, p.1.name = name ∧ continues f g p.2 p.1 = true ∧
    g.gateProgress name p.2 + 1 = p.1.steps.length ∧
    ∀ t ∈ sequences.take p.2, t.name = name → starts f t = false

/-- The counters of the gate can follow the operation: the gate is satisfied
already, the operation completes one of its sequences, or it starts or
continues them in at most one way. -/
def Followable (f : GateMatcher → Bool) (sequences : List GateSequence) (g : SequenceGates)
    (name : String) : Prop :=
  g.gateSatisfied name = true ∨ CompletesAlone f sequences name ∨
    CompletesFirst f sequences g name ∨ eventsFrom f g name 0 sequences ≤ 1

instance (f : GateMatcher → Bool) (sequences : List GateSequence) (g : SequenceGates)
    (name : String) : Decidable (Followable f sequences g name) := by
  unfold Followable CompletesAlone CompletesFirst
  infer_instance

theorem continues_congr {g' : SequenceGates}
    (h : g'.gateProgress s.name i = g.gateProgress s.name i) :
    continues f g' i s = continues f g i s := by
  unfold continues
  rw [h]

theorem continues_zero (h : g.gateProgress s.name i = 0) : continues f g i s = false := by
  unfold continues
  rw [h]
  rfl

variable (ss : List GateSequence) {k : ℕ}

theorem eventsFrom_le {g' : SequenceGates}
    (h : ∀ i, k ≤ i → g'.gateProgress name i = g.gateProgress name i ∨ g'.gateProgress name i = 0) :
    eventsFrom f g' name k ss ≤ eventsFrom f g name k ss := by
  induction ss generalizing k with
  | nil => exact le_rfl
  | cons s ss ih =>
    have hr := ih (k := k + 1) fun i hi => h i (by omega)
    rw [eventsFrom, eventsFrom]
    split
    · rename_i hn
      subst hn
      rcases h k le_rfl with heq | hz
      · rw [continues_congr heq]
        omega
      · rw [continues_zero hz]
        simp only [Bool.toNat_false]
        omega
    · omega

theorem one_le_eventsFrom {ss : List GateSequence} (hs : ss[j]? = some s)
    (h : starts f s = true ∨ continues f g (k + j) s = true) : 1 ≤ eventsFrom f g s.name k ss := by
  induction ss generalizing k j with
  | nil => simp at hs
  | cons t ss ih =>
    rw [eventsFrom]
    cases j with
    | zero =>
      cases hs
      rw [if_pos rfl]
      rcases h with h | h
      · simp only [h, Bool.toNat_true]
        omega
      · rw [Nat.add_zero] at h
        simp only [h, Bool.toNat_true]
        omega
    | succ j =>
      have hr := ih (k := k + 1) hs (by rwa [Nat.add_right_comm, Nat.add_assoc])
      omega

/-! ### All sequences see one operation -/

theorem advanceFrom_mono (h : g.gateSatisfied name = true) :
    (advanceFrom f k ss g).gateSatisfied name = true := by
  induction ss generalizing k g with
  | nil => exact h
  | cons s ss ih => exact ih (advanceSequence_mono h)

theorem advanceFrom_append (ts : List GateSequence) (k : ℕ) :
    advanceFrom f k (ss ++ ts) g = advanceFrom f (k + ss.length) ts (advanceFrom f k ss g) := by
  induction ss generalizing k g with
  | nil => rfl
  | cons s ss ih =>
    show advanceFrom f (k + 1) (ss ++ ts) _ = _
    rw [ih, length_cons, Nat.add_comm ss.length, Nat.add_assoc k 1]
    rfl

theorem advanceSequence_progress (hj : j ≠ k)
    (h : s.name = name → starts f s = true → continues f g k s = true) :
    (advanceSequence f k s g).gateProgress name j = g.gateProgress name j := by
  have hkey : ¬ (name = s.name ∧ j = k) := fun hkey => hj hkey.2
  cases advanceSequence_sees f k s g with
  | satisfied _ heq => rw [heq]
  | continued _ _ heq => rw [heq, gateProgress_advanceGateProgress, if_neg hkey]
  | started _ hc hs heq =>
    have hne : name ≠ s.name := by
      rintro rfl
      rw [h rfl hs] at hc
      cases hc
    rw [heq, gateProgress_advanceGateProgress, if_neg hkey, SequenceGates.gateProgress_clearGate,
      if_neg hne]
  | passed _ _ _ _ hp => rw [hp, if_neg hkey]

theorem advanceFrom_progress
    (h : ∀ i t, ss[i]? = some t → t.name = name → starts f t = true →
      continues f g (k + i) t = true) (hj : j < k ∨ k + ss.length ≤ j) :
    (advanceFrom f k ss g).gateProgress name j = g.gateProgress name j := by
  induction ss generalizing k g with
  | nil => rfl
  | cons s ss ih =>
    have hh : ∀ i, i ≠ k →
        (advanceSequence f k s g).gateProgress name i = g.gateProgress name i :=
      fun i hi => advanceSequence_progress hi (h 0 s rfl)
    rw [length_cons] at hj
    rw [advanceFrom, ih _ (by omega)]
    · exact hh j (by omega)
    · intro i t ht hn hs
      have hc := h (i + 1) t ht hn hs
      rw [Nat.add_comm i 1, ← Nat.add_assoc] at hc
      subst hn
      rwa [continues_congr (hh (k + 1 + i) (by omega))]

theorem head_quiet {ss : List GateSequence}
    (h : eventsFrom f g name k (s :: ss) = eventsFrom f g name (k + 1) ss) :
    s.name = name → starts f s = false ∧ continues f g k s = false := by
  intro hn
  rw [eventsFrom, if_pos hn] at h
  have hz : (starts f s).toNat = 0 ∧ (continues f g k s).toNat = 0 := by omega
  simpa using hz

/-- Without an event nothing happens to the gate and the counters before. -/
theorem advanceFrom_quiet (h : eventsFrom f g name k ss = 0) :
    (advanceFrom f k ss g).gateSatisfied name = g.gateSatisfied name ∧
      ∀ j < k, (advanceFrom f k ss g).gateProgress name j = g.gateProgress name j := by
  induction ss generalizing k g with
  | nil => exact ⟨rfl, fun j _ => rfl⟩
  | cons s ss ih =>
    have hr : eventsFrom f g name (k + 1) ss = 0 := by
      rw [eventsFrom] at h
      omega
    have hq := head_quiet (h.trans hr.symm)
    have hp : ∀ j, j ≠ k →
        (advanceSequence f k s g).gateProgress name j = g.gateProgress name j :=
      fun j hj => advanceSequence_progress hj fun hn hs => by
        simp [(hq hn).1] at hs
    have hr' : eventsFrom f (advanceSequence f k s g) name (k + 1) ss = 0 :=
      Nat.le_zero.mp (hr ▸ eventsFrom_le ss fun i hi => .inl (hp i (by omega)))
    obtain ⟨hsat, hb⟩ := ih hr'
    rw [advanceFrom, hsat, advanceSequence_quiet hq]
    exact ⟨rfl, fun j hj => (hb j (by omega)).trans (hp j (by omega))⟩

/-- **The only event decides.** If the operation starts or continues a gate in
one way only, the counter of that sequence moves, or the gate is satisfied. -/
theorem advanceFrom_event (ss : List GateSequence) {v : ℕ} (hsat : g.gateSatisfied s.name = false)
    (hs : ss[j]? = some s) (hone : eventsFrom f g s.name k ss ≤ 1)
    (hv : starts f s = true ∧ v = 1 ∨
      continues f g (k + j) s = true ∧ v = g.gateProgress s.name (k + j) + 1) :
    (advanceFrom f k ss g).gateSatisfied s.name = true ∨
      v < s.steps.length ∧ (advanceFrom f k ss g).gateProgress s.name (k + j) = v := by
  induction ss generalizing k j g with
  | nil => simp at hs
  | cons t ss ih =>
    cases j with
    | zero =>
      cases hs
      rw [Nat.add_zero] at hv ⊢
      rw [eventsFrom, if_pos rfl] at hone
      -- the head has the event, so the rest has none
      have hr : eventsFrom f g s.name (k + 1) ss = 0 ∧
          (continues f g k s = true ∧ v = g.gateProgress s.name k + 1 ∨
            continues f g k s = false ∧ starts f s = true ∧ v = 1) := by
        rcases hv with ⟨hst, rfl⟩ | ⟨hco, rfl⟩
        · cases hc : continues f g k s with
          | true =>
            simp only [hst, hc, Bool.toNat_true] at hone
            omega
          | false =>
            simp only [hst, hc, Bool.toNat_true, Bool.toNat_false] at hone
            exact ⟨by omega, .inr ⟨rfl, hst, rfl⟩⟩
        · simp only [hco, Bool.toNat_true] at hone
          exact ⟨by omega, .inl ⟨hco, rfl⟩⟩
      have hr' : eventsFrom f (advanceSequence f k s g) s.name (k + 1) ss = 0 := by
        refine Nat.le_zero.mp (hr.1 ▸ eventsFrom_le ss fun i hi => ?_)
        have hkey : ¬ (s.name = s.name ∧ i = k) := fun hkey => by omega
        exact (advanceSequence_other hkey).imp_right (·.1)
      obtain ⟨hsa, hb⟩ := advanceFrom_quiet ss hr'
      rw [advanceFrom, hsa, hb k (Nat.lt_succ_self k)]
      exact advanceSequence_event hsat hr.2
    | succ j =>
      rw [← Nat.add_assoc, Nat.add_right_comm] at hv ⊢
      have ht : 1 ≤ eventsFrom f g s.name (k + 1) ss := one_le_eventsFrom hs (hv.imp (·.1) (·.1))
      have hh : eventsFrom f g s.name k (t :: ss) = eventsFrom f g s.name (k + 1) ss := by
        rw [eventsFrom] at hone ⊢
        omega
      have hq := head_quiet hh
      have hp : ∀ i, i ≠ k →
          (advanceSequence f k t g).gateProgress s.name i = g.gateProgress s.name i :=
        fun i hi => advanceSequence_progress hi fun hn hst => by
          simp [(hq hn).1] at hst
      have hsat' : (advanceSequence f k t g).gateSatisfied s.name = false := by
        rw [advanceSequence_quiet hq, hsat]
      have hone' : eventsFrom f (advanceSequence f k t g) s.name (k + 1) ss ≤ 1 := by
        refine le_trans (eventsFrom_le ss fun i hi => .inl (hp i (by omega))) ?_
        rw [eventsFrom] at hone
        omega
      have hsa := hp (k + 1 + j) (by omega)
      refine ih hsat' hs hone' ?_
      rwa [continues_congr hsa, hsa]

/-! ### Counters follow what was seen -/

section Tracked

variable {ι : Type} (fits : GateMatcher → ι → Bool) (sequences : List GateSequence)

/-- The counters of the gate stand for all the prefixes of its sequences that
the last operations fit, and no whole sequence is among them. -/
def Current (name : String) (hist : List ι) (g : SequenceGates) : Prop :=
  ∀ (i : ℕ) (s : GateSequence), sequences[i]? = some s → s.name = name →
    ∀ k, 0 < k → k ≤ s.steps.length → EndsWith fits hist (s.steps.take k) →
      k < s.steps.length ∧ g.gateProgress name i = k

/-- The gate is satisfied, or its counters are up to date. -/
def Tracked (name : String) (hist : List ι) (g : SequenceGates) : Prop :=
  g.gateSatisfied name = true ∨ Current fits sequences name hist g

variable {fits sequences} {hist : List ι} {name : String}

theorem Tracked.satisfied (h : Tracked fits sequences name hist g) (hs : s ∈ sequences)
    (hn : s.name = name) (hend : EndsWith fits hist s.steps) :
    g.gateSatisfied name = true := by
  rcases h with hsat | h
  · exact hsat
  · obtain ⟨i, hi⟩ := mem_iff_getElem?.mp hs
    have hpos : 0 < s.steps.length := length_pos_iff.mpr s.steps_ne_nil
    have hlt := (h i s hi hn s.steps.length hpos le_rfl (by rwa [take_length])).1
    exact absurd hlt (lt_irrefl _)

theorem Tracked.empty (g : SequenceGates) : Tracked fits sequences name [] g := by
  right
  intro i s _ _ k hk _ hend
  have ht : s.steps.take k = [] := endsWith_nil_iff.mp hend
  rcases take_eq_nil_iff.mp ht with hz | hnil
  · omega
  · exact absurd hnil s.steps_ne_nil

variable {x : ι}

theorem Current.event (h : Current fits sequences name hist g) (hs : sequences[i]? = some s)
    (hn : s.name = name) {k : ℕ} (hk : 0 < k) (hle : k ≤ s.steps.length)
    (hend : EndsWith fits (hist ++ [x]) (s.steps.take k)) :
    starts (fun m => fits m x) s = true ∧ k = 1 ∨
      continues (fun m => fits m x) g i s = true ∧ k = g.gateProgress s.name i + 1 := by
  obtain ⟨k, rfl⟩ := Nat.exists_eq_succ_of_ne_zero (Nat.pos_iff_ne_zero.mp hk)
  have hm : s.steps[k]? = some (s.steps.get ⟨k, hle⟩) := List.getElem?_eq_getElem hle
  obtain ⟨hold, hf⟩ := (endsWith_take_succ hm).mp hend
  rcases Nat.eq_zero_or_pos k with rfl | hpos
  · exact .inl ⟨starts_iff.mpr ⟨_, hm, hf⟩, rfl⟩
  · obtain ⟨-, hp⟩ := h i s hs hn k hpos (by omega) hold
    rw [← hn] at hp
    refine .inr ⟨continues_iff.mpr ?_, by rw [hp]⟩
    rw [hp]
    exact ⟨hpos, _, hm, hf⟩

theorem Tracked.pass (h : Tracked fits sequences name hist g)
    (hq : g.gateSatisfied name = true ∨ eventsFrom (fun m => fits m x) g name 0 sequences = 0) :
    Tracked fits sequences name (hist ++ [x]) g := by
  rcases h with hsat | h
  · exact .inl hsat
  rcases hq with hsat | hq
  · exact .inl hsat
  right
  intro i s hs hn k hk hle hend
  have he := h.event hs hn hk hle hend
  have hc : 1 ≤ eventsFrom (fun m => fits m x) g s.name 0 sequences :=
    one_le_eventsFrom hs (by rw [Nat.zero_add]; exact he.imp (·.1) (·.1))
  rw [hn, hq] at hc
  omega

/-- A sequence of one step satisfies its gate wherever it stands. -/
theorem advance_completesAlone (h : CompletesAlone f sequences name) :
    (advanceSequenceGates f sequences g).gateSatisfied name = true := by
  obtain ⟨s, hs, rfl, hlen, hst⟩ := h
  obtain ⟨pre, post, rfl⟩ := append_of_mem hs
  rw [advanceSequenceGates, advanceFrom_append]
  apply advanceFrom_mono post
  cases advanceSequence_sees f (0 + pre.length) s (advanceFrom f 0 pre g) with
  | satisfied hsat heq => rw [heq, hsat]
  | continued _ _ heq =>
    rw [heq, gateSatisfied_advanceGateProgress, if_pos ⟨rfl, by omega⟩]
  | started _ _ _ heq =>
    rw [heq, gateSatisfied_advanceGateProgress, if_pos ⟨rfl, by omega⟩]
  | passed _ _ hnot _ _ =>
    rw [hst] at hnot
    cases hnot

theorem advanceSequenceGates_split (hi : sequences[i]? = some s) :
    advanceSequenceGates f sequences g = advanceFrom f (i + 1) (sequences.drop (i + 1))
      (advanceSequence f i s (advanceFrom f 0 (sequences.take i) g)) := by
  have hlt : i < sequences.length := (List.getElem?_eq_some_iff.mp hi).1
  have ht : (sequences.take i).length = i := length_take_of_le hlt.le
  have hs : sequences = sequences.take i ++ s :: sequences.drop (i + 1) := by
    rw [← List.getElem?_eq_some_iff.mp hi |>.2, cons_getElem_drop_succ, take_append_drop]
  conv_lhs => rw [advanceSequenceGates, hs, advanceFrom_append, ht, Nat.zero_add]
  rfl

/-- The last step of a sequence under way satisfies its gate, unless another
start came before. -/
theorem advance_completesFirst (h : CompletesFirst f sequences g name) :
    (advanceSequenceGates f sequences g).gateSatisfied name = true := by
  obtain ⟨⟨s, i⟩, hp, hn, hc, hlen, hb⟩ := h
  have hi : sequences[i]? = some s := mem_zipIdx_iff_getElem?.mp hp
  dsimp only at hn hc hlen hb
  subst hn
  have hpr : (advanceFrom f 0 (sequences.take i) g).gateProgress s.name i =
      g.gateProgress s.name i := by
    refine advanceFrom_progress _ (fun j t ht hn hs => ?_) (.inr (by simp))
    simp [hb t (mem_of_getElem? ht) hn] at hs
  rw [advanceSequenceGates_split hi]
  apply advanceFrom_mono (sequences.drop (i + 1))
  cases hsat : (advanceFrom f 0 (sequences.take i) g).gateSatisfied s.name with
  | true => exact advanceSequence_mono hsat
  | false =>
    have he := advanceSequence_event (v := g.gateProgress s.name i + 1) hsat
      (.inl ⟨(continues_congr hpr).trans hc, by rw [hpr]⟩)
    rcases he with hd | ⟨hsh, -⟩
    · exact hd
    · omega

/-- **An operation that can be followed is followed.** -/
theorem Tracked.advance (h : Tracked fits sequences name hist g)
    (hfo : Followable (fun m => fits m x) sequences g name) :
    Tracked fits sequences name (hist ++ [x])
      (advanceSequenceGates (fun m => fits m x) sequences g) := by
  rcases hfo with hsat | ha | hf | hone
  · exact .inl (advanceFrom_mono sequences hsat)
  · exact .inl (advance_completesAlone ha)
  · exact .inl (advance_completesFirst hf)
  rcases h with hsat | h
  · exact .inl (advanceFrom_mono sequences hsat)
  by_cases hsat : (advanceSequenceGates (fun m => fits m x) sequences g).gateSatisfied name = true
  · exact .inl hsat
  right
  intro i s hs hn k hk hle hend
  have he := h.event hs hn hk hle hend
  subst hn
  have hu : g.gateSatisfied s.name = false := by
    by_contra hb
    exact hsat (advanceFrom_mono sequences (by simpa using hb))
  have hm := advanceFrom_event sequences hu hs hone (by rwa [Nat.zero_add])
  rw [Nat.zero_add] at hm
  exact hm.resolve_left hsat

end Tracked

/-! ### One sequence on its way -/

section Way

variable {sequences : List GateSequence}

/-- The operation starts no sequence of the gate from number `i` on. -/
def StartsNoneFrom (f : GateMatcher → Bool) (sequences : List GateSequence) (name : String)
    (i : ℕ) : Prop :=
  ∀ p ∈ sequences.zipIdx, i ≤ p.2 → p.1.name = name → starts f p.1 = false

/-- The operation starts no sequence of the gate anew, sequence `i` apart. -/
def StartsNoOther (f : GateMatcher → Bool) (g : SequenceGates) (sequences : List GateSequence)
    (name : String) (i : ℕ) : Prop :=
  ∀ p ∈ sequences.zipIdx, p.2 ≠ i → p.1.name = name → starts f p.1 = true →
    continues f g p.2 p.1 = true

instance (f : GateMatcher → Bool) (sequences : List GateSequence) (name : String) (i : ℕ) :
    Decidable (StartsNoneFrom f sequences name i) := by
  unfold StartsNoneFrom
  infer_instance

instance (f : GateMatcher → Bool) (g : SequenceGates) (sequences : List GateSequence)
    (name : String) (i : ℕ) : Decidable (StartsNoOther f g sequences name i) := by
  unfold StartsNoOther
  infer_instance

theorem advanceFrom_other {name : String} (ss : List GateSequence) {k j : ℕ}
    (hj : k + ss.length ≤ j) :
    (advanceFrom f k ss g).gateProgress name j = g.gateProgress name j ∨
      (advanceFrom f k ss g).gateProgress name j = 0 := by
  induction ss generalizing k g with
  | nil => exact .inl rfl
  | cons s ss ih =>
    rw [length_cons] at hj
    have hkey : ¬ (name = s.name ∧ j = k) := fun hkey => by omega
    have hh := advanceSequence_other (f := f) (g := g) hkey
    rw [advanceFrom]
    rcases ih (g := advanceSequence f k s g) (k := k + 1) (by omega) with heq | hz
    · rw [heq]
      exact hh.imp_right (·.1)
    · exact .inr hz

/-- **A start counts**, if the sequence is not continued instead and none
after it starts too. -/
theorem advance_starts (hi : sequences[i]? = some s) (hst : starts f s = true)
    (hc : continues f g i s = false)
    (hl : StartsNoneFrom f sequences s.name (i + 1)) :
    (advanceSequenceGates f sequences g).gateSatisfied s.name = true ∨
      1 < s.steps.length ∧ (advanceSequenceGates f sequences g).gateProgress s.name i = 1 := by
  rw [advanceSequenceGates_split hi]
  -- what the sequences before have left
  have hc' : continues f (advanceFrom f 0 (sequences.take i) g) i s = false := by
    have hco : (advanceFrom f 0 (sequences.take i) g).gateProgress s.name i =
        g.gateProgress s.name i ∨
          (advanceFrom f 0 (sequences.take i) g).gateProgress s.name i = 0 :=
      advanceFrom_other _ (by simp)
    rcases hco with heq | hz
    · rw [continues_congr heq, hc]
    · exact continues_zero hz
  have ha : ∀ g' : SequenceGates, (advanceFrom f (i + 1) (sequences.drop (i + 1))
      g').gateProgress s.name i = g'.gateProgress s.name i := by
    intro g'
    refine advanceFrom_progress _ (fun j t ht hn hsta => ?_) (.inl (by omega))
    have hmem : (t, i + 1 + j) ∈ sequences.zipIdx := by
      rw [mem_zipIdx_iff_getElem?]
      rwa [List.getElem?_drop] at ht
    simp [hl _ hmem (by simp) hn] at hsta
  cases hsat : (advanceFrom f 0 (sequences.take i) g).gateSatisfied s.name with
  | true => exact .inl (advanceFrom_mono _ (advanceSequence_mono hsat))
  | false =>
    rcases advanceSequence_event hsat (.inr ⟨hc', hst, rfl⟩) with hd | ⟨hs, hone⟩
    · exact .inl (advanceFrom_mono _ hd)
    · exact .inr ⟨hs, by rw [ha, hone]⟩

/-- **A sequence under way goes on**, if the operation fits its next step and
starts no other one of the gate anew. -/
theorem advance_continues (hi : sequences[i]? = some s) (hc : continues f g i s = true)
    (ho : StartsNoOther f g sequences s.name i) :
    (advanceSequenceGates f sequences g).gateSatisfied s.name = true ∨
      g.gateProgress s.name i + 1 < s.steps.length ∧
        (advanceSequenceGates f sequences g).gateProgress s.name i =
          g.gateProgress s.name i + 1 := by
  rw [advanceSequenceGates_split hi]
  have hb : ∀ j, i ≤ j → (advanceFrom f 0 (sequences.take i) g).gateProgress s.name j =
      g.gateProgress s.name j := by
    intro j hj
    refine advanceFrom_progress _ (fun k t ht hn hs => ?_) (.inr (by simp; omega))
    have hk : k < i := by
      have hlen := (List.getElem?_eq_some_iff.mp ht).1
      rw [length_take] at hlen
      omega
    rw [List.getElem?_take_of_lt hk] at ht
    rw [Nat.zero_add]
    exact ho (t, k) (mem_zipIdx_iff_getElem?.mpr ht) hk.ne hn hs
  have hc' : continues f (advanceFrom f 0 (sequences.take i) g) i s = true := by
    rw [continues_congr (hb i le_rfl), hc]
  -- the sequences after it find their own counters as they were
  have ha : (advanceFrom f (i + 1) (sequences.drop (i + 1))
      (advanceSequence f i s (advanceFrom f 0 (sequences.take i) g))).gateProgress s.name i =
      (advanceSequence f i s (advanceFrom f 0 (sequences.take i) g)).gateProgress s.name i := by
    refine advanceFrom_progress _ (fun j t ht hn hs => ?_) (.inl (by omega))
    have hown : (advanceSequence f i s (advanceFrom f 0 (sequences.take i) g)).gateProgress t.name
        (i + 1 + j) = g.gateProgress t.name (i + 1 + j) := by
      rw [hn, advanceSequence_progress (by omega) fun _ _ => hc', hb _ (by omega)]
    rw [continues_congr hown]
    rw [List.getElem?_drop] at ht
    have hne : i + 1 + j ≠ i := by omega
    exact ho (t, i + 1 + j) (mem_zipIdx_iff_getElem?.mpr ht) hne hn hs
  cases hsat : (advanceFrom f 0 (sequences.take i) g).gateSatisfied s.name with
  | true => exact .inl (advanceFrom_mono _ (advanceSequence_mono hsat))
  | false =>
    rcases advanceSequence_event hsat (.inl ⟨hc', rfl⟩) with hd | ⟨hsh, hnex⟩
    · exact .inl (advanceFrom_mono _ hd)
    · rw [hb i le_rfl] at hsh hnex
      exact .inr ⟨hsh, by rw [ha, hnex]⟩

end Way

end Ptpsim.Sim
