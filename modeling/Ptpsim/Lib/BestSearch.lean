/-
# Depth-first search for a unique cheapest solution

A search over a tree given by its children function, down to a fixed depth.
It keeps the cheapest solution found and whether another one costs the same,
does not descend below a node that can no longer change that, and stops at a
budget of visited nodes. If the budget did not cut the search, pruning has lost
nothing (`dfs_choice_eq`), because the cost never falls on the way down.
-/
import Mathlib.Algebra.GroupWithZero.Nat
import Mathlib.Data.List.Induction
import Mathlib.Data.List.Nodup
import Mathlib.Order.Basic

namespace Ptpsim.BestSearch

open List

variable {ν β : Type}

/-! ### The choice kept -/

/-- The cheapest solution so far, and whether another one costs the same. -/
structure Choice (β : Type) where
  best : Option β
  tie : Bool
deriving DecidableEq, Repr

namespace Choice

variable (value : β → ℕ)

def empty : Choice β := ⟨none, false⟩

/-- No solution of cost at least `k` changes the choice. -/
def beaten (c : Choice β) (k : ℕ) : Bool :=
  match c.best with
  | none => false
  | some b => decide (value b < k) || (c.tie && k == value b)

/-- Takes in a solution that is not beaten. -/
def offer (c : Choice β) (b : β) : Choice β :=
  match c.best with
  | none => { c with best := some b }
  | some b₀ => if value b < value b₀ then ⟨some b, false⟩ else { c with tie := true }

def consider (c : Choice β) (b : β) : Choice β :=
  if c.beaten value (value b) then c else c.offer value b

variable {c : Choice β} {bs : List β}

/-- A beaten solution costs at least as much as the one kept, and more if
there is no tie. -/
theorem beaten_iff {b : β} (hb : c.best = some b) (k : ℕ) :
    c.beaten value k = true ↔ value b < k ∨ (c.tie = true ∧ k = value b) := by
  simp [beaten, hb]

theorem beaten_mono {k k' : ℕ} (h : c.beaten value k = true) (hk : k ≤ k') :
    c.beaten value k' = true := by
  cases hb : c.best with
  | none => simp [beaten, hb] at h
  | some b =>
    rw [beaten_iff value hb] at h ⊢
    rcases h with h | ⟨ht, rfl⟩
    · exact Or.inl (by omega)
    · rcases Nat.lt_or_ge (value b) k' with hlt | hge
      · exact Or.inl hlt
      · exact Or.inr ⟨ht, by omega⟩

theorem considerAll_beaten {k : ℕ} (h : c.beaten value k = true) :
    ∀ bs : List β, (∀ b ∈ bs, k ≤ value b) → bs.foldl (consider value) c = c
  | [], _ => rfl
  | b :: bs, hk => by
    have hb : c.beaten value (value b) = true := beaten_mono value h (hk b (mem_cons_self ..))
    rw [foldl_cons, consider, if_pos hb]
    exact considerAll_beaten h bs fun b' hb' => hk b' (mem_cons_of_mem _ hb')

/-- `b` stands once in `bs` and everything else in `bs` costs more. -/
def CheapestIn (b : β) (bs : List β) : Prop :=
  ∃ l r, bs = l ++ b :: r ∧ ∀ x ∈ l ++ r, value b < value x

/-- What the choice says about the solutions considered so far. -/
structure Sums (bs : List β) (c : Choice β) : Prop where
  none_iff : c.best = none → bs = [] ∧ c.tie = false
  least : ∀ b, c.best = some b → b ∈ bs ∧ ∀ x ∈ bs, value b ≤ value x
  unique : c.tie = false → ∀ b, c.best = some b → CheapestIn value b bs

theorem sums_empty : Sums value ([] : List β) empty where
  none_iff _ := ⟨rfl, rfl⟩
  least _ h := by cases h
  unique _ _ h := by cases h

theorem Sums.of_best {b : β} (hb : c.best = some b) (hmem : b ∈ bs)
    (hle : ∀ x ∈ bs, value b ≤ value x) (hu : c.tie = false → CheapestIn value b bs) :
    Sums value bs c := by
  have heq : ∀ b', c.best = some b' → b = b' := fun b' hb' => by
    rw [hb] at hb'
    exact Option.some.inj hb'
  refine ⟨fun hn => ?_, fun b' hb' => ?_, fun ht b' hb' => ?_⟩
  · rw [hb] at hn
    cases hn
  · exact heq b' hb' ▸ ⟨hmem, hle⟩
  · exact heq b' hb' ▸ hu ht

theorem forall_mem_concat {p : β → Prop} {x : β} (h : ∀ y ∈ bs, p y) (hx : p x) :
    ∀ y ∈ bs ++ [x], p y := by
  intro y hy
  rcases mem_append.mp hy with hy | hy
  · exact h y hy
  · exact mem_singleton.mp hy ▸ hx

theorem Sums.consider (h : Sums value bs c) (x : β) :
    Sums value (bs ++ [x]) (c.consider value x) := by
  unfold Choice.consider
  cases hb : c.best with
  | none =>
    -- the first solution is kept as it comes
    obtain ⟨rfl, ht⟩ := h.none_iff hb
    have hx : c.beaten value (value x) = false := by simp [beaten, hb]
    simp only [hx, offer, hb, Bool.false_eq_true, if_false]
    exact Sums.of_best value (b := x) rfl (by simp) (by simp) fun _ => ⟨[], [], by simp, by simp⟩
  | some b =>
    obtain ⟨hmem, hle⟩ := h.least b hb
    by_cases hx : c.beaten value (value x) = true
    · rw [if_pos hx]
      rw [beaten_iff value hb] at hx
      refine Sums.of_best value hb (mem_append_left _ hmem)
        (forall_mem_concat hle (by omega)) fun ht => ?_
      have hlt : value b < value x := by
        rcases hx with hx | ⟨ht', -⟩
        · exact hx
        · rw [ht] at ht'
          cases ht'
      obtain ⟨l, r, rfl, hlr⟩ := h.unique ht b hb
      refine ⟨l, r ++ [x], by simp, ?_⟩
      rw [← append_assoc]
      exact forall_mem_concat hlr hlt
    · rw [if_neg hx]
      unfold offer
      rw [hb]
      by_cases hlt : value x < value b
      · simp only [hlt, if_true]
        refine Sums.of_best value (b := x) rfl (by simp) (forall_mem_concat (fun y hy => ?_)
          (Nat.le_refl _)) fun _ => ⟨bs, [], rfl, fun y hy => ?_⟩
        · exact Nat.le_of_lt (Nat.lt_of_lt_of_le hlt (hle y hy))
        · rw [append_nil] at hy
          exact Nat.lt_of_lt_of_le hlt (hle y hy)
      · simp only [hlt, if_false]
        exact Sums.of_best value (b := b) rfl (mem_append_left _ hmem)
          (forall_mem_concat hle (Nat.le_of_not_lt hlt)) fun ht => by cases ht

theorem sums_considerAll (bs : List β) :
    Sums value bs (bs.foldl (Choice.consider value) empty) := by
  induction bs using List.reverseRecOn with
  | nil => exact sums_empty value
  | append_singleton bs x ih =>
    rw [foldl_append]
    exact ih.consider value x

/-- One solution is kept without a tie exactly when it is cheaper than all
the others. -/
theorem considerAll_unique_iff (bs : List β) (b : β) :
    bs.foldl (consider value) empty = ⟨some b, false⟩ ↔ CheapestIn value b bs := by
  constructor
  · intro h
    have hs := sums_considerAll value bs
    rw [h] at hs
    exact hs.unique rfl b rfl
  · rintro ⟨l, r, rfl, hlr⟩
    have hl := sums_considerAll value l
    rw [foldl_append, foldl_cons]
    generalize l.foldl (consider value) empty = c at hl
    -- `b` beats whatever was kept of the solutions before it
    have hc : c.consider value b = ⟨some b, false⟩ := by
      unfold consider
      cases hb : c.best with
      | none => simp [beaten, offer, hb, (hl.none_iff hb).2]
      | some b₀ =>
        have hlt : value b < value b₀ := hlr b₀ (mem_append_left _ (hl.least b₀ hb).1)
        rw [if_neg (by rw [beaten_iff value hb]; omega), offer, hb]
        simp only [hlt, if_true]
    rw [hc]
    refine considerAll_beaten value (k := value b + 1) (by simp [beaten]) r fun x hx => ?_
    exact hlr x (mem_append_right _ hx)

/-- Solutions known by name: the cheapest one is the one that costs less than
every solution of another name. -/
theorem cheapestIn_named_iff {κ : Type} {bs : List (κ × β)} (hn : (bs.map Prod.fst).Nodup) (b : β) :
    CheapestIn value b (bs.map Prod.snd) ↔
      ∃ k, (k, b) ∈ bs ∧ ∀ k' b', (k', b') ∈ bs → k' ≠ k → value b < value b' := by
  constructor
  · rintro ⟨l, r, h, hlr⟩
    obtain ⟨bl, br', rfl, rfl, hr'⟩ := map_eq_append_iff.mp h
    obtain ⟨⟨k, b₀⟩, br, rfl, rfl, rfl⟩ := map_eq_cons_iff.mp hr'
    refine ⟨k, by simp, fun k' b' hmem hne => hlr b' ?_⟩
    rcases mem_append.mp hmem with hl | hr
    · exact mem_append_left _ (mem_map.mpr ⟨_, hl, rfl⟩)
    · rcases mem_cons.mp hr with heq | hr
      · cases heq
        exact absurd rfl hne
      · exact mem_append_right _ (mem_map.mpr ⟨_, hr, rfl⟩)
  · rintro ⟨k, hmem, hlt⟩
    obtain ⟨bl, br, rfl⟩ := append_of_mem hmem
    refine ⟨bl.map Prod.snd, br.map Prod.snd, by simp, fun x hx => ?_⟩
    rw [← map_append] at hx
    obtain ⟨⟨k', b'⟩, hb', rfl⟩ := mem_map.mp hx
    -- another entry has another name
    have hk : k' ≠ k := by
      rintro rfl
      have hdup : k' ∉ (bl ++ br).map Prod.fst := by
        have hmid : (k' :: (bl.map Prod.fst ++ br.map Prod.fst)).Nodup :=
          nodup_middle.mp (by simpa using hn)
        rw [map_append]
        exact (nodup_cons.mp hmid).1
      exact hdup (mem_map.mpr ⟨_, hb', rfl⟩)
    refine hlt k' b' ?_ hk
    rcases mem_append.mp hb' with h | h
    · exact mem_append_left _ h
    · exact mem_append_right _ (mem_cons_of_mem _ h)

end Choice

/-! ### The search -/

/-- A tree of partial solutions. A node's cost is a lower bound for those below
it, and that of a finished node is its solution's. -/
structure Problem (ν β : Type) where
  children : ν → List ν
  finish : ν → Option β
  cost : ν → ℕ
  value : β → ℕ
  cost_le : ∀ x, ∀ y ∈ children x, cost x ≤ cost y
  value_finish : ∀ x b, finish x = some b → value b = cost x

structure State (β : Type) extends Choice β where
  visited : ℕ
  exhausted : Bool
deriving DecidableEq, Repr

def State.visit (s : State β) : State β := { s with visited := s.visited + 1 }

variable (P : Problem ν β) (budget : ℕ)

/-- A node at the last level. -/
def settle (x : ν) (s : State β) : State β :=
  match P.finish x with
  | none => s
  | some b => { s with toChoice := s.toChoice.offer P.value b }

/-- Visits a node with `n` levels below it. -/
def dfs (n : ℕ) (x : ν) (s : State β) : State β :=
  if budget ≤ s.visited then { s with exhausted := true }
  else if s.beaten P.value (P.cost x) then s.visit
  else
    match n with
    | 0 => settle P x s.visit
    | n + 1 => (P.children x).foldl (fun s y => dfs n y s) s.visit

/-- The solutions below a node, in the order of the search. -/
def solutions : ℕ → ν → List β
  | 0, x => (P.finish x).toList
  | n + 1, x => (P.children x).flatMap (solutions n)

/-- The number of nodes of the tree, nothing pruned. -/
def size : ℕ → ν → ℕ
  | 0, _ => 1
  | n + 1, x => 1 + ((P.children x).map (size n)).sum

section equations

variable {P budget} {n : ℕ} {x : ν} {s : State β}

theorem dfs_cut (hb : budget ≤ s.visited) : dfs P budget n x s = { s with exhausted := true } := by
  rw [dfs.eq_def, if_pos hb]

theorem dfs_beaten (hb : ¬ budget ≤ s.visited) (hc : s.beaten P.value (P.cost x) = true) :
    dfs P budget n x s = s.visit := by
  rw [dfs.eq_def, if_neg hb, if_pos hc]

theorem dfs_zero (hb : ¬ budget ≤ s.visited) (hc : ¬ s.beaten P.value (P.cost x) = true) :
    dfs P budget 0 x s = settle P x s.visit := by
  rw [dfs, if_neg hb, if_neg hc]

theorem dfs_succ (hb : ¬ budget ≤ s.visited) (hc : ¬ s.beaten P.value (P.cost x) = true) :
    dfs P budget (n + 1) x s = (P.children x).foldl (fun s y => dfs P budget n y s) s.visit := by
  rw [dfs, if_neg hb, if_neg hc]

end equations

theorem State.visit_visited (s : State β) : s.visit.visited = s.visited + 1 := rfl

theorem settle_visited (x : ν) (s : State β) : (settle P x s).visited = s.visited := by
  unfold settle
  split <;> rfl

theorem settle_exhausted (x : ν) (s : State β) : (settle P x s).exhausted = s.exhausted := by
  unfold settle
  split <;> rfl

theorem cost_le_value : ∀ (n : ℕ) (x : ν), ∀ b ∈ solutions P n x, P.cost x ≤ P.value b
  | 0, x, b, hb => by
    simp only [solutions, Option.mem_toList] at hb
    exact Nat.le_of_eq (P.value_finish x b hb).symm
  | n + 1, x, b, hb => by
    obtain ⟨y, hy, hb⟩ := mem_flatMap.mp hb
    exact Nat.le_trans (P.cost_le x y hy) (cost_le_value n y b hb)

/-! ### The budget -/

theorem exhausted_of_foldl {step : State β → ν → State β}
    (hs : ∀ s y, (step s y).exhausted = false → s.exhausted = false) :
    ∀ (ys : List ν) (s : State β), (ys.foldl step s).exhausted = false → s.exhausted = false
  | [], _, h => h
  | y :: ys, s, h => hs s y (exhausted_of_foldl hs ys (step s y) h)

theorem exhausted_of_dfs (n : ℕ) (s : State β) (x : ν)
    (h : (dfs P budget n x s).exhausted = false) : s.exhausted = false := by
  by_cases hb : budget ≤ s.visited
  · rw [dfs_cut hb] at h
    cases h
  by_cases hc : s.beaten P.value (P.cost x) = true
  · rwa [dfs_beaten hb hc] at h
  cases n with
  | zero => rwa [dfs_zero hb hc, settle_exhausted] at h
  | succ n =>
    rw [dfs_succ hb hc] at h
    exact exhausted_of_foldl (exhausted_of_dfs n) _ s.visit h

/-- A search within the budget is not cut and visits no more nodes than the
tree has. -/
theorem dfs_within (n : ℕ) : ∀ (x : ν) (s : State β), s.visited + size P n x ≤ budget →
    (dfs P budget n x s).visited ≤ s.visited + size P n x ∧
      (dfs P budget n x s).exhausted = s.exhausted := by
  induction n with
  | zero =>
    intro x s hs
    simp only [size] at hs ⊢
    have hb : ¬ budget ≤ s.visited := by omega
    by_cases hc : s.beaten P.value (P.cost x) = true
    · rw [dfs_beaten hb hc]
      exact ⟨Nat.le_refl _, rfl⟩
    · rw [dfs_zero hb hc, settle_visited, settle_exhausted]
      exact ⟨Nat.le_refl _, rfl⟩
  | succ n ih =>
    have hf : ∀ (ys : List ν) (s : State β), s.visited + (ys.map (size P n)).sum ≤ budget →
        (ys.foldl (fun s y => dfs P budget n y s) s).visited ≤
            s.visited + (ys.map (size P n)).sum ∧
          (ys.foldl (fun s y => dfs P budget n y s) s).exhausted = s.exhausted := by
      intro ys
      induction ys with
      | nil => exact fun s _ => ⟨Nat.le_refl _, rfl⟩
      | cons y ys ihy =>
        intro s hs
        simp only [map_cons, sum_cons, foldl_cons] at hs ⊢
        obtain ⟨hv, he⟩ := ih y s (by omega)
        obtain ⟨hv', he'⟩ := ihy (dfs P budget n y s) (by omega)
        exact ⟨by omega, he'.trans he⟩
    intro x s hs
    simp only [size] at hs ⊢
    have hb : ¬ budget ≤ s.visited := by omega
    have hvis := s.visit_visited
    by_cases hc : s.beaten P.value (P.cost x) = true
    · rw [dfs_beaten hb hc]
      exact ⟨by omega, rfl⟩
    · obtain ⟨hv, hex⟩ := hf (P.children x) s.visit (by omega)
      rw [dfs_succ hb hc]
      exact ⟨by omega, hex⟩

/-! ### Pruning loses nothing -/

/-- A search that was not cut keeps what considering every solution in turn
keeps. -/
theorem dfs_choice_eq (n : ℕ) (x : ν) (s : State β)
    (h : (dfs P budget n x s).exhausted = false) :
    (dfs P budget n x s).toChoice =
      (solutions P n x).foldl (Choice.consider P.value) s.toChoice := by
  by_cases hb : budget ≤ s.visited
  · rw [dfs_cut hb] at h
    cases h
  by_cases hc : s.beaten P.value (P.cost x) = true
  · rw [dfs_beaten hb hc]
    exact (Choice.considerAll_beaten P.value hc _ (cost_le_value P n x)).symm
  cases n with
  | zero =>
    rw [dfs_zero hb hc]
    unfold settle solutions
    cases hf : P.finish x with
    | none => rfl
    | some b =>
      rw [← P.value_finish x b hf] at hc
      simp only [Option.toList_some, foldl_cons, foldl_nil, Choice.consider]
      rw [if_neg hc]
      rfl
  | succ n =>
    -- the children are searched in turn, each from what the one before left
    have hfo : ∀ (ys : List ν) (s : State β),
        (ys.foldl (fun s y => dfs P budget n y s) s).exhausted = false →
        (ys.foldl (fun s y => dfs P budget n y s) s).toChoice =
          (ys.flatMap (solutions P n)).foldl (Choice.consider P.value) s.toChoice := by
      intro ys
      induction ys with
      | nil => exact fun s _ => rfl
      | cons y ys ihy =>
        intro s hs
        have hy : (dfs P budget n y s).exhausted = false :=
          exhausted_of_foldl (exhausted_of_dfs P budget n) ys _ hs
        rw [foldl_cons, ihy _ hs, dfs_choice_eq n y s hy, flatMap_cons, foldl_append]
    rw [dfs_succ hb hc] at h ⊢
    exact hfo _ s.visit h

end Ptpsim.BestSearch
