/-
# Fault windows over whole runs

A fault set is called with insertions, removals, clears and operations in any
order. What its rules ought to do is said by a ledger beside it
(`FaultLedger`): every installed rule with the operations since its
installation and whether it was applied to each. A rule qualifies for an
operation it matches if the number `k` of its earlier matches lies in its
window, `skip ≤ k < skip + count` in the natural numbers, and the first
qualifying rule is the one that is applied.

As long as fewer than `2 ^ 32 - 1` operations have come in, no counter has
saturated, and the fault set agrees with the ledger rule by rule (`Mirrors`).
-/
import Mathlib.Algebra.Group.Nat.Defs
import Mathlib.Data.List.Forall2
import Mathlib.Data.List.Induction
import Mathlib.Data.List.Nodup
import Ptpsim.Lib.Machine
import Ptpsim.Sim.Fault

namespace Ptpsim.Sim

open List Machine Option

/-! ### The first item of a kind -/

section MarkFirst

variable {α β γ : Type}

/-- `f` at the first item with `p`, `g` at every other one. -/
def markFirst (p : α → Bool) (f g : α → β) : List α → List β
  | [] => []
  | a :: as => if p a then f a :: as.map g else g a :: markFirst p f g as

variable {p : α → Bool} {f g : α → β} {α' : Type}

theorem mem_markFirst {b : β} : ∀ {as : List α},
    b ∈ markFirst p f g as → ∃ a ∈ as, b = f a ∧ p a = true ∨ b = g a
  | [], h => by simp [markFirst] at h
  | a :: as, h => by
    unfold markFirst at h
    by_cases ha : p a = true
    · rw [if_pos ha] at h
      rcases mem_cons.mp h with rfl | h
      · exact ⟨a, mem_cons_self .., .inl ⟨rfl, ha⟩⟩
      · obtain ⟨a', ha', rfl⟩ := mem_map.mp h
        exact ⟨a', mem_cons_of_mem _ ha', .inr rfl⟩
    · rw [if_neg ha] at h
      rcases mem_cons.mp h with rfl | h
      · exact ⟨a, mem_cons_self .., .inr rfl⟩
      · obtain ⟨a', ha', hb⟩ := mem_markFirst h
        exact ⟨a', mem_cons_of_mem _ ha', hb⟩

theorem map_markFirst (k : β → γ) (h : α → γ) (hf : ∀ a, k (f a) = h a) (hg : ∀ a, k (g a) = h a) :
    ∀ as : List α,
    (markFirst p f g as).map k = as.map h
  | [] => rfl
  | a :: as => by
    unfold markFirst
    by_cases ha : p a = true
    · simp only [if_pos ha, List.map_cons, hf, List.map_map, Function.comp_def, hg]
    · simp only [if_neg ha, map_cons, hg, map_markFirst k h hf hg as]

variable {R : α → α' → Prop}

theorem forall₂_markFirst {β' : Type} {S : β → β' → Prop} {p' : α' → Bool}
    {f' g' : α' → β'} (hp : ∀ a a', R a a' → p a = p' a') (hf : ∀ a a', R a a' → S (f a) (f' a'))
    (hg : ∀ a a', R a a' → S (g a) (g' a')) :
    ∀ {as : List α} {as' : List α'}, List.Forall₂ R as as' →
      List.Forall₂ S (markFirst p f g as) (markFirst p' f' g' as')
  | _, _, .nil => .nil
  | a :: as, a' :: as', .cons h hs => by
    unfold markFirst
    rw [hp a a' h]
    by_cases ha : p' a' = true
    · rw [if_pos ha, if_pos ha]
      refine .cons (hf a a' h) ?_
      rw [forall₂_map_left_iff, forall₂_map_right_iff]
      exact hs.imp hg
    · rw [if_neg ha, if_neg ha]
      exact .cons (hg a a' h) (forall₂_markFirst hp hf hg hs)

theorem find?_related {p' : α' → Bool} {k : α → γ} {k' : α' → γ}
    (hp : ∀ a a', R a a' → p a = p' a') (hk : ∀ a a', R a a' → k a = k' a') :
    ∀ {as : List α} {as' : List α'}, List.Forall₂ R as as' →
      (as.find? p).map k = (as'.find? p').map k'
  | _, _, .nil => rfl
  | a :: as, a' :: as', .cons h hs => by
    rw [List.find?_cons, List.find?_cons, hp a a' h]
    by_cases ha : p' a' = true
    · simp [ha, hk a a' h]
    · simp [ha, find?_related hp hk hs]

theorem markFirst_of_none : ∀ {as : List α}, as.findIdx? p = none →
    ∀ f g : α → β, as.find? p = none ∧ markFirst p f g as = as.map g
  | [], _, _, _ => ⟨rfl, rfl⟩
  | a :: as, h, f, g => by
    rw [List.findIdx?_cons] at h
    by_cases ha : p a = true
    · simp [ha] at h
    · simp only [if_neg ha, map_eq_none_iff] at h
      obtain ⟨hf, hm⟩ := markFirst_of_none h f g
      rw [List.find?_cons_of_neg ha, markFirst, if_neg ha, hm]
      exact ⟨hf, rfl⟩

theorem markFirst_of_some : ∀ {as : List α} {i : ℕ}, as.findIdx? p = some i →
    ∀ f g : α → β, ∃ a, as[i]? = some a ∧ as.find? p = some a ∧
      (as.map g).set i (f a) = markFirst p f g as
  | [], _, h, _, _ => by simp at h
  | a :: as, i, h, f, g => by
    rw [List.findIdx?_cons] at h
    by_cases ha : p a = true
    · simp only [if_pos ha, Option.some.injEq] at h
      subst h
      exact ⟨a, rfl, List.find?_cons_of_pos ha, by simp [markFirst, ha]⟩
    · simp only [if_neg ha, map_eq_some_iff] at h
      obtain ⟨j, hj, rfl⟩ := h
      obtain ⟨b, hb, hf, hm⟩ := markFirst_of_some hj f g
      refine ⟨b, hb, ?_, ?_⟩
      · rw [List.find?_cons_of_neg ha, hf]
      · rw [markFirst, if_neg ha, map_cons, set_cons_succ, hm]

theorem related_getElem? : ∀ {as : List α} {as' : List α'},
    List.Forall₂ R as as' → ∀ {i : ℕ} {a : α} {a' : α'}, as[i]? = some a →
      as'[i]? = some a' → R a a'
  | _, _, .nil, _, _, _, h, _ => by simp at h
  | _ :: _, _ :: _, .cons hb hs, i, a, a', h, h' => by
    cases i with
    | zero =>
      simp only [List.getElem?_cons_zero, Option.some.injEq] at h h'
      rwa [h, h'] at hb
    | succ i => exact related_getElem? hs h h'

end MarkFirst

/-! ### What an operation does to the rules -/

def FaultRule.use (rule : FaultRule) : FaultRule :=
  { rule with applied := saturatingSucc32 rule.applied }

/-- The rule applies to this operation if no earlier rule does. -/
def FaultRule.ready (code : UInt16) (params : List UInt32) (rule : FaultRule) : Bool :=
  rule.selects code params && armed rule.selector rule.seen

/-- What the caller is told about the rule that applies. -/
def FaultRule.report (rule : FaultRule) : AppliedFault :=
  ⟨rule.id, rule.mutation.kind, wirePlan rule.mutation⟩

variable (s : FaultSet) (rule : FaultRule) (code : UInt16) (params : List UInt32)

@[simp] theorem FaultRule.see_id : (rule.see code params).id = rule.id := by
  unfold see
  split <;> rfl

@[simp] theorem FaultRule.see_selector : (rule.see code params).selector = rule.selector := by
  unfold see
  split <;> rfl

@[simp] theorem FaultRule.see_mutation : (rule.see code params).mutation = rule.mutation := by
  unfold see
  split <;> rfl

@[simp] theorem FaultRule.see_applied : (rule.see code params).applied = rule.applied := by
  unfold see
  split <;> rfl

/-- The loop of `apply` and the update of the selected rule, as one pass. -/
theorem FaultSet.apply_eq :
    s.apply code params =
      ((s.rules.find? (FaultRule.ready code params)).map FaultRule.report, { s with
        rules := markFirst (FaultRule.ready code params) (fun rule => (rule.see code params).use)
          (fun rule => rule.see code params) s.rules
        lastApplied := ((s.rules.find? (FaultRule.ready code params)).map fun rule =>
          ⟨rule.id, code, params, rule.mutation.kind⟩).or s.lastApplied
        appliedMutation := (s.rules.find? (FaultRule.ready code params)).map
          FaultRule.mutation }) := by
  unfold apply
  cases hi : s.rules.findIdx? (FaultRule.ready code params) with
  | none =>
    obtain ⟨hf, hm⟩ := markFirst_of_none hi
      (fun rule : FaultRule => (rule.see code params).use) (fun rule => rule.see code params)
    rw [hf, hm, show s.rules.findIdx? (fun rule => rule.selects code params &&
      armed rule.selector rule.seen) = none from hi]
    rfl
  | some index =>
    obtain ⟨rule, hr, hf, hm⟩ := markFirst_of_some hi
      (fun rule : FaultRule => (rule.see code params).use) (fun rule => rule.see code params)
    have hs : (s.rules.map fun rule => rule.see code params)[index]? =
        some (rule.see code params) := by
      rw [List.getElem?_map, hr]
      rfl
    rw [hf, ← hm, show s.rules.findIdx? (fun rule => rule.selects code params &&
      armed rule.selector rule.seen) = some index from hi]
    simp only [hs, FaultRule.see_id, FaultRule.see_mutation, FaultRule.use]
    rfl

/-! ### Calls on a fault set -/

inductive FaultCall where
  | insert (spec : FaultSpec)
  | remove (id : UInt64)
  | clear
  | operation (code : UInt16) (params : List UInt32)
  | takeAppliedMutation

inductive FaultAnswer where
  | inserted (result : Except FaultMutation.Invalid UInt64)
  | removed (found : Bool)
  | cleared
  | applied (fault : Option AppliedFault)
  | taken (mutation : Option FaultMutation)

def FaultCall.isOperation : FaultCall → Bool
  | operation _ _ => true
  | _ => false

variable (calls : List FaultCall)

/-- The number of operations in a run. -/
def operationCount : ℕ := calls.countP FaultCall.isOperation

def FaultSet.step (s : FaultSet) : FaultCall → FaultAnswer × FaultSet
  | .insert spec =>
    match s.tryInsert spec with
    | .ok (id, s') => (.inserted (.ok id), s')
    | .error e => (.inserted (.error e), s)
  | .remove id => (.removed (s.remove id).1, (s.remove id).2)
  | .clear => (.cleared, s.clear)
  | .operation code params => (.applied (s.apply code params).1, (s.apply code params).2)
  | .takeAppliedMutation => (.taken s.takeAppliedMutation.1, s.takeAppliedMutation.2)

/-! ### The ledger -/

/-- One operation that came in while a rule was installed. -/
structure Occurrence where
  code : UInt16
  params : List UInt32
  applied : Bool
deriving DecidableEq

/-- A rule with everything that has come in since its installation. `serial`
tells installations apart when ids do not. -/
structure InstalledRule where
  serial : ℕ
  id : UInt64
  selector : FaultSelector
  mutation : FaultMutation
  log : List Occurrence
deriving DecidableEq

namespace InstalledRule

variable (rule : InstalledRule)

/-- The selector names the operation and, if it lists parameters, these. -/
def selects (code : UInt16) (params : List UInt32) : Bool :=
  rule.selector.operation = code && rule.selector.params.all fun expected => expected = params

/-- How many matching operations have come in so far. -/
def matched : ℕ :=
  rule.log.countP fun occurrence => rule.selects occurrence.code occurrence.params

/-- How many operations the rule has been applied to. -/
def applications : ℕ := rule.log.countP Occurrence.applied

/-- The window of the rule: from `skip` matches on, for `count` of them. -/
def InWindow (selector : FaultSelector) (k : ℕ) : Prop :=
  selector.skip.toNat ≤ k ∧ ∀ count ∈ selector.count, k < selector.skip.toNat + count.toNat

-- the instance by name: as a statement about all of `UInt32` it is decidable too, by enumeration
instance (selector : FaultSelector) (k : ℕ) : Decidable (InWindow selector k) :=
  @instDecidableAnd _ _ inferInstance (Option.decidableForallMem selector.count)

def qualifies (code : UInt16) (params : List UInt32) (rule : InstalledRule) : Bool :=
  rule.selects code params && decide (InWindow rule.selector rule.matched)

def note (code : UInt16) (params : List UInt32) (applied : Bool) (rule : InstalledRule) :
    InstalledRule :=
  { rule with log := rule.log ++ [⟨code, params, applied⟩] }

def report : AppliedFault :=
  ⟨rule.id, rule.mutation.kind, wirePlan rule.mutation⟩

end InstalledRule

/-- The installed rules in the order of their installation. -/
structure FaultLedger where
  nextSerial : ℕ := 0
  rules : List InstalledRule := []

/-- What a call adds to the ledger. -/
def FaultLedger.record (s : FaultSet) : FaultCall → FaultLedger → FaultLedger
  | .insert spec, ledger =>
    match s.tryInsert spec with
    | .ok (id, _) =>
      ⟨ledger.nextSerial + 1,
        ledger.rules ++ [⟨ledger.nextSerial, id, spec.selector, spec.mutation, []⟩]⟩
    | .error _ => ledger
  | .remove id, ledger => { ledger with rules := ledger.rules.filter fun rule => rule.id ≠ id }
  | .clear, ledger => { ledger with rules := [] }
  | .operation code params, ledger => { ledger with
      rules := markFirst (InstalledRule.qualifies code params)
        (InstalledRule.note code params true) (InstalledRule.note code params false) ledger.rules }
  | .takeAppliedMutation, ledger => ledger

/-- The fault set after a run from the empty one. -/
def FaultSet.after : FaultSet := Machine.run FaultSet.step {} calls

/-- The ledger after a run from the empty fault set. -/
def FaultLedger.after : FaultLedger :=
  (Machine.run (Machine.recorded FaultSet.step FaultLedger.record) ({}, {}) calls).2

variable (calls : List FaultCall)

theorem FaultSet.after_concat (call : FaultCall) :
    after (calls ++ [call]) = ((after calls).step call).2 :=
  run_append ..

open FaultLedger

theorem run_recorded_after :
    Machine.run (recorded FaultSet.step record) ({}, {}) calls =
      (FaultSet.after calls, FaultLedger.after calls) :=
  Prod.ext (run_recorded ..) rfl

theorem FaultLedger.after_concat (call : FaultCall) :
    after (calls ++ [call]) = record (FaultSet.after calls) call (after calls) := by
  rw [after, run_append, run_recorded_after]
  rfl

/-! ### The fault set follows the ledger -/

theorem armed_iff (selector : FaultSelector) (seen : UInt32) :
    armed selector seen = true ↔ InstalledRule.InWindow selector seen.toNat := by
  unfold armed InstalledRule.InWindow
  by_cases hs : seen < selector.skip
  · have hlt := UInt32.lt_iff_toNat_lt.mp hs
    simp [hs, Nat.not_le.mpr hlt]
  · have hle : selector.skip ≤ seen := UInt32.not_lt.mp hs
    have hnat := UInt32.le_iff_toNat_le.mp hle
    have hc : ∀ count : UInt32, seen - selector.skip < count ↔
        seen.toNat < selector.skip.toNat + count.toNat := by
      intro count
      rw [UInt32.lt_iff_toNat_lt, UInt32.toNat_sub_of_le seen selector.skip hle]
      omega
    simp only [if_neg hs, Option.all_eq_true, decide_eq_true_eq, hc, hnat, true_and, mem_def]

theorem toNat_saturatingSucc32 {n : UInt32} (h : n.toNat < 2 ^ 32 - 1) :
    (saturatingSucc32 n).toNat = n.toNat + 1 := by
  have hne : n ≠ 0xffffffff := by
    rintro rfl
    exact absurd h (by decide)
  rw [saturatingSucc32, if_neg hne, UInt32.toNat_add]
  exact Nat.mod_eq_of_lt (by simp; omega)

namespace InstalledRule

theorem matched_le (rule : InstalledRule) : rule.matched ≤ rule.log.length := countP_le_length

theorem applications_le (rule : InstalledRule) : rule.applications ≤ rule.log.length :=
  countP_le_length

variable (code : UInt16) (params : List UInt32) (applied : Bool) (rule : InstalledRule)

theorem matched_note : (rule.note code params applied).matched =
    rule.matched + if rule.selects code params then 1 else 0 := by
  have hs : (rule.note code params applied).selects = rule.selects := rfl
  rw [matched, matched, hs, note, countP_append, countP_singleton]

theorem applications_note : (rule.note code params applied).applications =
    rule.applications + if applied then 1 else 0 := by
  rw [applications, applications, note, countP_append, countP_singleton]

theorem length_note : (rule.note code params applied).log.length = rule.log.length + 1 := by
  rw [note, length_append, length_singleton]

end InstalledRule

/-- A rule of the fault set and the installed rule it stands for, after at most
`n` operations. -/
structure Mirrors (n : ℕ) (rule : FaultRule) (installed : InstalledRule) : Prop where
  id_eq : rule.id = installed.id
  selector_eq : rule.selector = installed.selector
  mutation_eq : rule.mutation = installed.mutation
  seen_eq : rule.seen.toNat = installed.matched
  applied_eq : rule.applied.toNat = installed.applications
  length_le : installed.log.length ≤ n

open InstalledRule

namespace Mirrors

variable {n : ℕ} {rule : FaultRule} {installed : InstalledRule}

theorem selects_eq (h : Mirrors n rule installed) : rule.selects = installed.selects := by
  funext code params
  rw [FaultRule.selects, selects, h.selector_eq]

theorem ready_eq (h : Mirrors n rule installed) (code : UInt16) (params : List UInt32) :
    rule.ready code params = installed.qualifies code params := by
  have ha : armed rule.selector rule.seen =
      decide (InstalledRule.InWindow installed.selector installed.matched) := by
    rw [Bool.eq_iff_iff, armed_iff, h.selector_eq, h.seen_eq, decide_eq_true_eq]
  rw [FaultRule.ready, qualifies, h.selects_eq, ha]

theorem see (h : Mirrors n rule installed) (hn : n < 2 ^ 32 - 1) (code : UInt16)
    (params : List UInt32) :
    Mirrors (n + 1) (rule.see code params) (installed.note code params false) := by
  refine ⟨?_, ?_, ?_, ?_, ?_, ?_⟩
  · rw [FaultRule.see_id, h.id_eq, InstalledRule.note]
  · rw [FaultRule.see_selector, h.selector_eq, InstalledRule.note]
  · rw [FaultRule.see_mutation, h.mutation_eq, InstalledRule.note]
  · have hse : rule.seen.toNat < 2 ^ 32 - 1 := by
      have := installed.matched_le
      have := h.length_le
      have := h.seen_eq
      omega
    rw [matched_note, ← h.seen_eq, ← h.selects_eq]
    unfold FaultRule.see
    by_cases hs : rule.selects code params = true
    · rw [if_pos hs, if_pos hs, toNat_saturatingSucc32 hse]
    · rw [if_neg hs, if_neg hs, Nat.add_zero]
  · rw [FaultRule.see_applied, applications_note, h.applied_eq]
    rfl
  · rw [length_note]
    exact Nat.succ_le_succ h.length_le

theorem use (h : Mirrors n rule installed) (hn : n < 2 ^ 32 - 1) (code : UInt16)
    (params : List UInt32) :
    Mirrors (n + 1) (rule.see code params).use (installed.note code params true) := by
  have hsee := h.see hn code params
  have ha : rule.applied.toNat < 2 ^ 32 - 1 := by
    have := installed.applications_le
    have := h.length_le
    have := h.applied_eq
    omega
  refine ⟨hsee.id_eq, hsee.selector_eq, hsee.mutation_eq, ?_, ?_, ?_⟩
  · rw [matched_note, ← matched_note code params false]
    exact hsee.seen_eq
  · rw [applications_note, ← h.applied_eq, FaultRule.use, FaultRule.see_applied]
    exact toNat_saturatingSucc32 ha
  · rw [length_note]
    exact Nat.succ_le_succ h.length_le

end Mirrors

theorem FaultSet.tryInsert_cases (spec : FaultSpec) :
    (∃ e, s.tryInsert spec = .error e) ∨ s.tryInsert spec = .ok (s.nextId, { s with
      nextId := saturatingSucc64 s.nextId
      rules := s.rules ++ [⟨s.nextId, spec.selector, spec.mutation, 0, 0⟩] }) := by
  unfold tryInsert
  cases spec.mutation.validate with
  | error e => exact .inl ⟨e, rfl⟩
  | ok _ => exact .inr rfl

variable {ledger : FaultLedger}

theorem mirrors_step {n : ℕ} {s : FaultSet} (h : List.Forall₂ (Mirrors n) s.rules ledger.rules)
    (hn : n < 2 ^ 32 - 1) (call : FaultCall) :
    List.Forall₂ (Mirrors (n + if call.isOperation then 1 else 0)) (s.step call).2.rules
      (record s call ledger).rules := by
  cases call with
  | insert spec =>
    rcases s.tryInsert_cases spec with ⟨e, hi⟩ | hi
    · simp only [FaultSet.step, record, hi]
      exact h
    · simp only [FaultSet.step, record, hi]
      exact rel_append h (.cons ⟨rfl, rfl, rfl, rfl, rfl, Nat.zero_le _⟩ .nil)
  | remove id =>
    apply rel_filter _ h
    intro rule installed hm
    simp only [hm.id_eq]
  | clear => exact .nil
  | operation code params =>
    show List.Forall₂ (Mirrors (n + 1)) (s.apply code params).2.rules _
    rw [FaultSet.apply_eq]
    exact forall₂_markFirst (fun _ _ hm => hm.ready_eq code params)
      (fun _ _ hm => hm.use hn code params) (fun _ _ hm => hm.see hn code params) h
  | takeAppliedMutation => exact h

theorem operationCount_concat (call : FaultCall) :
    operationCount (calls ++ [call]) =
      operationCount calls + if call.isOperation then 1 else 0 := by
  rw [operationCount, operationCount, countP_append, countP_singleton]

/-- Before the counters can saturate, the fault set mirrors the ledger. -/
theorem mirrors_run (h : operationCount calls < 2 ^ 32 - 1) :
    List.Forall₂ (Mirrors (operationCount calls)) (FaultSet.after calls).rules
      (FaultLedger.after calls).rules := by
  induction calls using List.reverseRecOn with
  | nil => exact .nil
  | append_singleton calls call ih =>
    rw [operationCount_concat] at h ⊢
    have hb : operationCount calls < 2 ^ 32 - 1 := by omega
    rw [FaultSet.after_concat, after_concat]
    exact mirrors_step (ih hb) hb call

/-! ### A window that has passed stays passed -/

/-- The window of the rule lies behind it. -/
def InstalledRule.Over (rule : InstalledRule) : Prop :=
  ∃ count ∈ rule.selector.count, rule.selector.skip.toNat + count.toNat ≤ rule.matched

theorem InstalledRule.Over.not_qualifies {rule : InstalledRule} (h : rule.Over) (code : UInt16)
    (params : List UInt32) : rule.qualifies code params = false := by
  obtain ⟨count, hc, hle⟩ := h
  have hout : ¬ InWindow rule.selector rule.matched := fun hin => by
    have := hin.2 count hc
    omega
  rw [qualifies, decide_eq_false hout, Bool.and_false]

/-- What a ledger says about the rules another one knew before it. -/
structure FaultLedger.Continues (start ledger : FaultLedger) : Prop where
  serial_le : start.nextSerial ≤ ledger.nextSerial
  known : ∀ rule' ∈ ledger.rules, rule'.serial < start.nextSerial →
    ∃ rule ∈ start.rules, rule.serial = rule'.serial ∧ rule.selector = rule'.selector ∧
      rule.matched ≤ rule'.matched ∧ (rule.Over → rule'.applications = rule.applications)

theorem FaultLedger.Continues.refl (ledger : FaultLedger) : ledger.Continues ledger :=
  ⟨Nat.le_refl _, fun rule h _ => ⟨rule, h, rfl, rfl, Nat.le_refl _, fun _ => rfl⟩⟩

/-- Noting an operation keeps what is known of a rule, unless it is applied
with its window behind it. -/
theorem FaultLedger.Continues.record {start : FaultLedger} (h : start.Continues ledger)
    (s : FaultSet) (call : FaultCall) : start.Continues (record s call ledger) := by
  cases call with
  | insert spec =>
    rcases s.tryInsert_cases spec with ⟨e, hi⟩ | hi
    · simpa only [FaultLedger.record, hi] using h
    · simp only [FaultLedger.record, hi]
      refine ⟨Nat.le_succ_of_le h.serial_le, fun rule' hmem hse => ?_⟩
      rcases mem_append.mp hmem with hmem | hmem
      · exact h.known rule' hmem hse
      · -- the new rule has a serial of its own
        obtain rfl := mem_singleton.mp hmem
        exact absurd h.serial_le (Nat.not_le.mpr hse)
  | remove id =>
    exact ⟨h.serial_le, fun rule' hmem => h.known rule' (mem_of_mem_filter hmem)⟩
  | clear => exact ⟨h.serial_le, fun rule' hmem => absurd hmem (not_mem_nil)⟩
  | takeAppliedMutation => exact h
  | operation code params =>
    refine ⟨h.serial_le, fun rule' hmem hse => ?_⟩
    obtain ⟨before, hb, hn⟩ := mem_markFirst hmem
    rcases hn with ⟨rfl, hq⟩ | rfl
    all_goals
      obtain ⟨rule, hr, hs, hsel, hm, happ⟩ := h.known before hb hse
      refine ⟨rule, hr, hs, hsel, by rw [matched_note]; omega, fun ho => ?_⟩
    · -- a rule whose window has passed does not qualify
      obtain ⟨count, hc, hle⟩ := ho
      have ho' : before.Over := ⟨count, hsel ▸ hc, by rw [← hsel]; omega⟩
      rw [ho'.not_qualifies] at hq
      cases hq
    · rw [applications_note, happ ho]
      rfl

theorem continues_run (calls later : List FaultCall) :
    (FaultLedger.after calls).Continues (FaultLedger.after (calls ++ later)) := by
  have ha : FaultLedger.after (calls ++ later) =
      (Machine.run (recorded FaultSet.step record)
        (FaultSet.after calls, FaultLedger.after calls) later).2 := by
    rw [FaultLedger.after, run_append, run_recorded_after]
  rw [ha]
  exact run_invariant (recorded FaultSet.step record)
    (P := fun sg => (FaultLedger.after calls).Continues sg.2)
    (fun sg call h => h.record sg.1 call) _ later (FaultLedger.Continues.refl _)

/-- Serials are given out once. -/
structure FaultLedger.Ordered (ledger : FaultLedger) : Prop where
  below : ∀ rule ∈ ledger.rules, rule.serial < ledger.nextSerial
  nodup : (ledger.rules.map InstalledRule.serial).Nodup

theorem FaultLedger.Ordered.record (h : ledger.Ordered) (s : FaultSet) (call : FaultCall) :
    (record s call ledger).Ordered := by
  cases call with
  | insert spec =>
    rcases s.tryInsert_cases spec with ⟨e, hi⟩ | hi
    · simpa only [FaultLedger.record, hi] using h
    · simp only [FaultLedger.record, hi]
      refine ⟨fun rule hmem => ?_, ?_⟩
      · rcases mem_append.mp hmem with hmem | hmem
        · exact Nat.lt_succ_of_lt (h.below rule hmem)
        · obtain rfl := mem_singleton.mp hmem
          exact Nat.lt_succ_self _
      · rw [map_append, nodup_append]
        refine ⟨h.nodup, by simp, ?_⟩
        intro serial hs other ho
        obtain ⟨rule, hr, rfl⟩ := mem_map.mp hs
        rw [map_singleton, mem_singleton] at ho
        rw [ho]
        exact Nat.ne_of_lt (h.below rule hr)
  | remove id =>
    exact ⟨fun rule hmem => h.below rule (mem_of_mem_filter hmem),
      h.nodup.sublist (filter_sublist.map _)⟩
  | clear => exact ⟨fun rule hmem => absurd hmem (not_mem_nil), nodup_nil⟩
  | takeAppliedMutation => exact h
  | operation code params =>
    refine ⟨fun rule hmem => ?_, ?_⟩
    · obtain ⟨before, hb, hn⟩ := mem_markFirst hmem
      rcases hn with ⟨rfl, -⟩ | rfl
      · exact h.below before hb
      · exact h.below before hb
    · have hs : ∀ applied rule,
          (InstalledRule.note code params applied rule).serial = rule.serial := fun _ _ => rfl
      show (List.map serial (markFirst _ _ _ _)).Nodup
      rw [map_markFirst serial serial (hs true) (hs false)]
      exact h.nodup

theorem ordered_run : (FaultLedger.after calls).Ordered :=
  run_invariant (recorded FaultSet.step record)
    (P := fun sg => sg.2.Ordered) (fun sg call h => h.record sg.1 call) ({}, {}) calls
    ⟨fun _ h => absurd h not_mem_nil, nodup_nil⟩

theorem Mirrors.over_of_exhausted {n : ℕ} {rule : FaultRule} {installed : InstalledRule}
    (h : Mirrors n rule installed) (hn : n < 2 ^ 32 - 1)
    (he : exhausted rule.selector rule.seen = true) : installed.Over := by
  unfold exhausted at he
  rw [Option.any_eq_true] at he
  obtain ⟨count, hc, hle⟩ := he
  rw [decide_eq_true_eq, h.selector_eq, h.seen_eq] at hle
  rw [h.selector_eq] at hc
  refine ⟨count, hc, ?_⟩
  -- the saturated sum is out of reach, so the sum did not saturate
  have := installed.matched_le
  have := h.length_le
  omega

/-! ### The main result -/

/-- What `list` reports of a rule agrees with the ledger. -/
def Reports (view : FaultView) (installed : InstalledRule) : Prop :=
  view.id = installed.id ∧ view.selector = installed.selector ∧
    view.mutation = installed.mutation ∧ view.seen.toNat = installed.matched ∧
    view.applied.toNat = installed.applications

theorem reports_run (h : operationCount calls < 2 ^ 32 - 1) :
    List.Forall₂ Reports (FaultSet.after calls).list (FaultLedger.after calls).rules := by
  unfold FaultSet.list
  rw [forall₂_map_left_iff]
  exact (mirrors_run calls h).imp fun rule installed hm =>
    ⟨hm.id_eq, hm.selector_eq, hm.mutation_eq, hm.seen_eq, hm.applied_eq⟩

/-- **Fault windows.** In every run with fewer than `2 ^ 32 - 1` operations:
the reported numbers are the exact match and application counts; the rule
applied to an operation is the first installed rule that matches it with its
number of earlier matches in its window, and none if there is no such rule;
and a rule reported exhausted is never applied again. -/
theorem fault_windows (calls : List FaultCall) (h : operationCount calls < 2 ^ 32 - 1) :
    List.Forall₂ Reports (FaultSet.after calls).list (FaultLedger.after calls).rules ∧
    (∀ code params,
      ((FaultSet.after calls).apply code params).1 =
        ((FaultLedger.after calls).rules.find? (InstalledRule.qualifies code params)).map
          InstalledRule.report ∧
      ((FaultSet.after calls).apply code params).2.appliedMutation =
        ((FaultLedger.after calls).rules.find? (InstalledRule.qualifies code params)).map
          InstalledRule.mutation) ∧
    ∀ (i : ℕ) (view : FaultView) (rule : InstalledRule),
      (FaultSet.after calls).list[i]? = some view →
      (FaultLedger.after calls).rules[i]? = some rule → view.exhausted = true →
      ∀ later, operationCount (calls ++ later) < 2 ^ 32 - 1 →
        ∀ (j : ℕ) (view' : FaultView) (rule' : InstalledRule),
          (FaultSet.after (calls ++ later)).list[j]? = some view' →
          (FaultLedger.after (calls ++ later)).rules[j]? = some rule' →
          rule'.serial = rule.serial → view'.applied = view.applied := by
  have hmi := mirrors_run calls h
  refine ⟨reports_run calls h, fun code params => ?_, ?_⟩
  · rw [FaultSet.apply_eq]
    have hrea : ∀ rule installed, Mirrors (operationCount calls) rule installed →
        rule.ready code params = installed.qualifies code params :=
      fun _ _ hm => hm.ready_eq code params
    have hre : ∀ rule installed, Mirrors (operationCount calls) rule installed →
        rule.report = installed.report := by
      intro rule installed hm
      rw [FaultRule.report, report, hm.id_eq, hm.mutation_eq]
    constructor
    · exact find?_related hrea hre hmi
    · exact find?_related hrea (fun _ _ hm => hm.mutation_eq) hmi
  · intro i view rule hv hru he later hl j view' rule' hv' hru' hs
    have hre : Reports view rule := related_getElem? (reports_run calls h) hv hru
    have hre' : Reports view' rule' := related_getElem? (reports_run (calls ++ later) hl) hv' hru'
    have hov : rule.Over := by
      rw [FaultSet.list, List.getElem?_map, map_eq_some_iff] at hv
      obtain ⟨r, hr, rfl⟩ := hv
      exact (related_getElem? hmi hr hru).over_of_exhausted h he
    have hmem := mem_of_getElem? hru
    have ho := ordered_run calls
    obtain ⟨known, hk, hsa, -, -, ha⟩ :=
      (continues_run calls later).known rule' (mem_of_getElem? hru') (hs ▸ ho.below rule hmem)
    have heq : known = rule := inj_on_of_nodup_map ho.nodup hk hmem (hsa.trans hs)
    rw [heq] at ha
    have hc : view'.applied.toNat = view.applied.toNat :=
      calc view'.applied.toNat = rule'.applications := hre'.2.2.2.2
        _ = rule.applications := ha hov
        _ = view.applied.toNat := hre.2.2.2.2.symm
    exact UInt32.toNat_inj.mp hc

/-- A rule for the second read of a property: installed, then one read. -/
def firstRead : List FaultCall :=
  [.insert ⟨⟨0x1015, none, 1, some 1⟩, .failResponse 0x2019⟩, .operation 0x1015 [0x5001]]

/-- The same with the second read, which uses the rule up. -/
def secondRead : List FaultCall :=
  [.insert ⟨⟨0x1015, none, 1, some 1⟩, .failResponse 0x2019⟩, .operation 0x1015 [0x5001],
    .operation 0x1015 []]

def moreReads : List FaultCall := [.operation 0x1015 [], .operation 0x1014 []]

/-- The rule is applied to the second read, and what is reported of the
exhausted rule stays the same over the operations after it. -/
theorem fault_windows_secondRead :
    ((FaultSet.after firstRead).apply 0x1015 []).1 = some ⟨1, "failResponse", .none⟩ ∧
    ∀ view', (FaultSet.after (secondRead ++ moreReads)).list[0]? = some view' →
      view'.applied = 1 := by
  constructor
  · rw [((fault_windows firstRead (by decide)).2.1 0x1015 []).1]
    decide
  · intro view' hv'
    have hv : (FaultSet.after secondRead).list[0]? =
        some ⟨1, ⟨0x1015, none, 1, some 1⟩, .failResponse 0x2019, 2, 1, true⟩ := by
      decide +kernel
    have hr : (FaultLedger.after secondRead).rules[0]? =
        some ⟨0, 1, ⟨0x1015, none, 1, some 1⟩, .failResponse 0x2019,
          [⟨0x1015, [0x5001], false⟩, ⟨0x1015, [], true⟩]⟩ := by decide +kernel
    have hr' : (FaultLedger.after (secondRead ++ moreReads)).rules[0]? =
        some ⟨0, 1, ⟨0x1015, none, 1, some 1⟩, .failResponse 0x2019,
          [⟨0x1015, [0x5001], false⟩, ⟨0x1015, [], true⟩, ⟨0x1015, [], false⟩,
            ⟨0x1014, [], false⟩]⟩ := by decide +kernel
    exact (fault_windows secondRead (by decide)).2.2 0 _ _ hv hr rfl moreReads (by decide) 0
      view' _ hv' hr' rfl

end Ptpsim.Sim
