/-
# Re-framing undeclared members

At an undeclared member the width of the value is unknown, so a payload has a
walk for every choice of the widths 1, 2 and 4 at its undeclared members
(`Frames`). The search of `ReframeSearch.walk` is the library's search for a
unique cheapest solution over these walks, the cost of a walk being the number
of its undeclared members (`walk_core`).

The search counts declared records against its budget too. A stream whose
first undeclared member comes after 4096 declared records exhausts it before
that member is recorded, and the `expect` of the error path fails
(`parse_returns_iff`).
-/
import Ptpsim.Lib.BestSearch
import Ptpsim.Primitives.RecordStream

namespace Ptpsim.Primitives

open Ptpsim.Core Codec BestSearch List Option ReframeSearch CandidateWalk

/-! ### Reads from a slice -/

theorem stable_readLe (width : ℕ) : Stable Reader.unread (readLe width) := by
  unfold readLe
  split
  · exact stable_u8.map _
  · exact stable_u16.map _
  · exact stable_u32.map _

theorem stable_recordValue (e : RecordValueEncoding) : Stable Reader.unread (recordValue e) := by
  cases e with
  | fixed width => exact (stable_readLe width).map _
  | signed width =>
    unfold recordValue
    simp only
    split
    · exact stable_i8.map _
    · exact stable_i16.map _
    · exact stable_i32.map _
  | ptpString => exact stable_ptpString.map _

theorem readFrom_of_consumes {α : Type} {p : Decoder α} {xs : List UInt8} {v : α}
    (h : Consumes Reader.unread p xs v) (tail : List UInt8) :
    readFrom p (xs ++ tail) = some (v, tail) := by
  obtain ⟨r, hr, hu⟩ := h (Reader.new (xs ++ tail)) tail rfl
  rw [readFrom, hr, ← hu]

/-- A stable read sees the unread bytes only: a fresh cursor on the slice
reads what the cursor in the middle of the buffer reads. -/
theorem readFrom_unread {α : Type} {p : Decoder α} (hp : Stable Reader.unread p) (r : Reader) :
    (∃ v r', p r = .ok (v, r') ∧ readFrom p r.unread = some (v, r'.unread)) ∨
    (∃ e, p r = .error e ∧ readFrom p r.unread = none) := by
  cases hr : p r with
  | ok res =>
    obtain ⟨v, r'⟩ := res
    obtain ⟨xs, hx, hc⟩ := hp r v r' hr
    exact Or.inl ⟨v, r', rfl, by rw [hx, readFrom_of_consumes hc]⟩
  | error e =>
    refine Or.inr ⟨e, rfl, ?_⟩
    cases hf : p (Reader.new r.unread) with
    | error e' => rw [readFrom, hf]
    | ok res =>
      obtain ⟨v, r'⟩ := res
      obtain ⟨xs, hx, hc⟩ := hp _ v r' hf
      obtain ⟨r₁, h₁, -⟩ := hc r r'.unread hx
      rw [hr] at h₁
      cases h₁

/-! ### One record -/

/-- What stands at the start of a slice: nothing readable, a declared record,
or an undeclared code. -/
inductive Next where
  | unreadable
  | declared (code : UInt16) (value : PropValue) (rest : List UInt8)
  | undeclared (code : UInt16) (afterCode : List UInt8)
deriving DecidableEq

def nextRecord (d : RecordStreamDescriptor) (body : List UInt8) : Next :=
  match readFrom (readLe d.layout.codeWidth) body with
  | none => .unreadable
  | some (code, afterCode) =>
    match d.members code.toUInt16 with
    | none => .undeclared code.toUInt16 afterCode
    | some encoding =>
      match readFrom (recordValue encoding) afterCode with
      | none => .unreadable
      | some (value, rest) => .declared code.toUInt16 value rest

/-- The strict walk meets its first undeclared member after `k` declared
records. -/
inductive UndeclaredAt (d : RecordStreamDescriptor) : ℕ → List UInt8 → ℕ → Prop where
  | here {n body code afterCode} (h : nextRecord d body = .undeclared code afterCode) :
      UndeclaredAt d (n + 1) body 0
  | after {n body code value rest k} (h : nextRecord d body = .declared code value rest)
      (hk : UndeclaredAt d n rest k) : UndeclaredAt d (n + 1) body (k + 1)

/-- A walk with a record before it. -/
def CandidateWalk.cons (w : CandidateWalk) (code : UInt16) (value : PropValue) : CandidateWalk :=
  { w with records := (code, value) :: w.records }

/-- A walk with a skipped member before it. -/
def CandidateWalk.consSkip (w : CandidateWalk) (code : UInt16) (value : UInt32) : CandidateWalk :=
  ⟨w.records, .skippedUndeclaredMember code value :: w.diagnostics, w.undeclared + 1⟩

/-- A walk over `n` records that uses the payload up, with the widths chosen
for its undeclared members in order. -/
inductive Frames (d : RecordStreamDescriptor) : ℕ → List UInt8 → List ℕ → CandidateWalk → Prop where
  | done : Frames d 0 [] [] {}
  | declared {n body code value rest ws w} (h : nextRecord d body = .declared code value rest)
      (hw : Frames d n rest ws w) :
      Frames d (n + 1) body ws (w.cons code value)
  | skipped {n body code afterCode width value rest ws w}
      (h : nextRecord d body = .undeclared code afterCode)
      (hwidth : width ∈ undeclaredReframeWidths)
      (hv : readFrom (readLe width) afterCode = some (value, rest)) (hw : Frames d n rest ws w) :
      Frames d (n + 1) body (width :: ws) (w.consSkip code value.toUInt32)

/-! ### The strict walk -/

theorem walkDeclaredFrom_succ (d : RecordStreamDescriptor) (n : ℕ)
    (out : List (UInt16 × PropValue)) (r : Reader) :
    (∃ e, nextRecord d r.unread = .unreadable ∧
      walkDeclaredFrom d (n + 1) out r = some (.error e)) ∨
    (∃ code value r', nextRecord d r.unread = .declared code value r'.unread ∧
      walkDeclaredFrom d (n + 1) out r = walkDeclaredFrom d n (out ++ [(code, value)]) r') ∨
    (∃ code afterCode, nextRecord d r.unread = .undeclared code afterCode ∧
      walkDeclaredFrom d (n + 1) out r = none) := by
  unfold nextRecord
  rcases readFrom_unread (stable_readLe d.layout.codeWidth) r with
    ⟨code, r₁, h₁, hf⟩ | ⟨e, h₁, hf⟩
  · cases hm : d.members code.toUInt16 with
    | none =>
      refine Or.inr (Or.inr ⟨code.toUInt16, r₁.unread, ?_, ?_⟩)
      · simp only [hf, hm]
      · simp only [walkDeclaredFrom, h₁, hm]
    | some encoding =>
      rcases readFrom_unread (stable_recordValue encoding) r₁ with
        ⟨value, r₂, h₂, hf₂⟩ | ⟨e, h₂, hf₂⟩
      · refine Or.inr (Or.inl ⟨code.toUInt16, value, r₂, ?_, ?_⟩)
        · simp only [hf, hm, hf₂]
        · simp only [walkDeclaredFrom, h₁, hm, readRecordValue, h₂]
      · refine Or.inl ⟨.decode e, ?_, ?_⟩
        · simp only [hf, hm, hf₂]
        · simp only [walkDeclaredFrom, h₁, hm, readRecordValue, h₂]
  · refine Or.inl ⟨.decode e, ?_, ?_⟩
    · simp only [hf]
    · simp only [walkDeclaredFrom, h₁]

theorem walkDeclaredFrom_none_iff (d : RecordStreamDescriptor) :
    ∀ (n : ℕ) (out : List (UInt16 × PropValue)) (r : Reader),
      walkDeclaredFrom d n out r = none ↔ ∃ k, UndeclaredAt d n r.unread k
  | 0, out, r => by
    constructor
    · intro h
      cases h
    · rintro ⟨k, h⟩
      cases h
  | n + 1, out, r => by
    rcases walkDeclaredFrom_succ d n out r with ⟨e, hn, hw⟩ | ⟨code, value, r', hn, hw⟩ |
      ⟨code, afterCode, hn, hw⟩
    · rw [hw]
      constructor
      · intro h
        cases h
      · rintro ⟨k, h⟩
        cases h with
        | here h => rw [hn] at h; cases h
        | after h _ => rw [hn] at h; cases h
    · rw [hw, walkDeclaredFrom_none_iff d n _ r']
      constructor
      · rintro ⟨k, h⟩
        exact ⟨k + 1, .after hn h⟩
      · rintro ⟨k, h⟩
        cases h with
        | here h => rw [hn] at h; cases h
        | after h hk =>
          rw [hn] at h
          cases h
          exact ⟨_, hk⟩
    · rw [hw]
      exact ⟨fun _ => ⟨0, .here hn⟩, fun _ => rfl⟩

theorem walkDeclaredFrom_diagnostics (d : RecordStreamDescriptor) :
    ∀ (n : ℕ) (out : List (UInt16 × PropValue)) (r : Reader) (res : DecodedRecordStream),
      walkDeclaredFrom d n out r = some (.ok res) → res.diagnostics = []
  | 0, out, r, res, h => by
    cases h
    rfl
  | n + 1, out, r, res, h => by
    rcases walkDeclaredFrom_succ d n out r with
      ⟨e, -, hw⟩ | ⟨code, value, r', -, hw⟩ | ⟨_, _, -, hw⟩
    · rw [hw] at h
      cases h
    · rw [hw] at h
      exact walkDeclaredFrom_diagnostics d n _ r' res h
    · rw [hw] at h
      cases h

/-- Where the strict walk ends, every walk is the strict one. -/
theorem walkDeclaredFrom_frames (d : RecordStreamDescriptor) :
    ∀ (n : ℕ) (out : List (UInt16 × PropValue)) (r : Reader) (ws : List ℕ) (w : CandidateWalk)
      (outcome : Except RecordStreamError DecodedRecordStream),
      walkDeclaredFrom d n out r = some outcome → Frames d n r.unread ws w →
      outcome = .ok ⟨out ++ w.records, []⟩ ∧ w.diagnostics = []
  | 0, out, r, ws, w, outcome, h, hf => by
    generalize hu : r.unread = body at hf
    cases hf
    cases h
    exact ⟨by rw [append_nil], rfl⟩
  | n + 1, out, r, ws, w, outcome, h, hf => by
    generalize hu : r.unread = body at hf
    rcases walkDeclaredFrom_succ d n out r with ⟨e, hn, hw⟩ | ⟨code, value, r', hn, hw⟩ |
      ⟨code, afterCode, hn, hw⟩
    · rw [hu] at hn
      cases hf with
      | declared h' _ => rw [hn] at h'; cases h'
      | skipped h' _ _ _ => rw [hn] at h'; cases h'
    · rw [hu] at hn
      cases hf with
      | declared h' hr =>
        rw [hn] at h'
        cases h'
        rw [hw] at h
        obtain ⟨rfl, hd⟩ := walkDeclaredFrom_frames d n _ r' _ _ outcome h hr
        exact ⟨by rw [append_assoc]; rfl, hd⟩
      | skipped h' _ _ _ => rw [hn] at h'; cases h'
    · rw [hw] at h
      cases h

/-! ### The search, one call at a time -/

namespace ReframeSearch

def enter (s : ReframeSearch) : ReframeSearch := { s with states := s.states + 1 }

/-- The branch of an undeclared member at one width. -/
def branch (d : RecordStreamDescriptor) (n : ℕ) (w : CandidateWalk) (code : UInt16)
    (afterCode : List UInt8) (s : ReframeSearch) (width : ℕ) : ReframeSearch :=
  match readFrom (readLe width) afterCode with
  | none => s
  | some (value, rest) => walk d n rest (w.skip code value.toUInt32) s

variable {d : RecordStreamDescriptor} {w : CandidateWalk} {s : ReframeSearch} {n : ℕ}
  {body : List UInt8}

theorem walk_cut (h : reframeStateBudget ≤ s.states) :
    walk d n body w s = { s with exhausted := true } := by
  rw [walk.eq_def, if_pos h]

theorem walk_hopeless (h : ¬ reframeStateBudget ≤ s.states) (hh : s.hopeless w = true) :
    walk d n body w s = s.enter := by
  rw [walk.eq_def, if_neg h, if_pos hh]
  rfl

theorem walk_zero (h : ¬ reframeStateBudget ≤ s.states) (hh : ¬ s.hopeless w = true) :
    walk d 0 body w s = s.enter.complete body w := by
  rw [walk.eq_def, if_neg h, if_neg hh]
  rfl

theorem walk_succ (h : ¬ reframeStateBudget ≤ s.states) (hh : ¬ s.hopeless w = true) :
    walk d (n + 1) body w s =
      match nextRecord d body with
      | .unreadable => s.enter
      | .declared code value rest => walk d n rest (w.push code value) s.enter
      | .undeclared code afterCode =>
        undeclaredReframeWidths.foldl (branch d n w code afterCode) (s.enter.meet code) := by
  rw [walk.eq_def, if_neg h, if_neg hh]
  unfold nextRecord
  cases hc : readFrom (readLe d.layout.codeWidth) body with
  | none => rfl
  | some res =>
    obtain ⟨code, afterCode⟩ := res
    cases hm : d.members code.toUInt16 with
    | none => simp only [hm]; rfl
    | some encoding =>
      simp only [hm]
      cases readFrom (recordValue encoding) afterCode with
      | none => rfl
      | some res => rfl

/-- The part of the search state that the choice of a walk depends on. -/
def core (s : ReframeSearch) : BestSearch.State CandidateWalk :=
  ⟨⟨s.best, s.tie⟩, s.states, s.exhausted⟩

theorem hopeless_eq (s : ReframeSearch) (w : CandidateWalk) :
    s.hopeless w = s.core.beaten undeclared w.undeclared := by
  unfold hopeless Choice.beaten core
  cases s.best <;> rfl

theorem core_meet (s : ReframeSearch) (code : UInt16) : (s.meet code).core = s.core := by
  unfold meet
  split <;> rfl

theorem core_complete (s : ReframeSearch) (w : CandidateWalk) :
    (s.complete [] w).core =
      { s.core with toChoice := s.core.toChoice.offer undeclared w } := by
  unfold complete Choice.offer core
  cases s.best with
  | none => rfl
  | some best =>
    simp only [isEmpty_nil, not_true_eq_false, if_false]
    by_cases hlt : w.undeclared < best.undeclared
    · simp only [hlt, if_true]
    · simp only [hlt, if_false]

end ReframeSearch

/-- The tree of partial walks: a node is the slice left and the walk so far.
-/
def searchProblem (d : RecordStreamDescriptor) :
    BestSearch.Problem (List UInt8 × CandidateWalk) CandidateWalk where
  children := fun (body, w) =>
    match nextRecord d body with
    | .unreadable => []
    | .declared code value rest => [(rest, w.push code value)]
    | .undeclared code afterCode =>
      undeclaredReframeWidths.filterMap fun width =>
        (readFrom (readLe width) afterCode).map fun (value, rest) =>
          (rest, w.skip code value.toUInt32)
  finish := fun (body, w) => if body.isEmpty then some w else none
  cost := fun (_, w) => w.undeclared
  value := CandidateWalk.undeclared
  cost_le := by
    rintro ⟨body, w⟩ ⟨rest, w'⟩ hy
    simp only at hy
    split at hy
    · cases hy
    · cases mem_singleton.mp hy
      exact Nat.le_refl _
    · obtain ⟨width, -, hmap⟩ := mem_filterMap.mp hy
      obtain ⟨res, -, hres⟩ := map_eq_some_iff.mp hmap
      cases hres
      exact Nat.le_succ _
  value_finish := by
    rintro ⟨body, w⟩ b hb
    simp only at hb
    split at hb
    · cases hb
      rfl
    · cases hb

/-- The three branches in turn, those that can be read. -/
theorem foldl_branch_core {d : RecordStreamDescriptor} {n : ℕ}
    (hw : ∀ body w (s : ReframeSearch), (ReframeSearch.walk d n body w s).core =
      dfs (searchProblem d) reframeStateBudget n (body, w) s.core)
    (w : CandidateWalk) (code : UInt16) (afterCode : List UInt8) :
    ∀ (widths : List ℕ) (s : ReframeSearch),
      (widths.foldl (branch d n w code afterCode) s).core =
        (widths.filterMap fun width =>
          (readFrom (readLe width) afterCode).map fun (value, rest) =>
            (rest, w.skip code value.toUInt32)).foldl
          (fun t y => dfs (searchProblem d) reframeStateBudget n y t) s.core
  | [], _ => rfl
  | width :: widths, s => by
    rw [foldl_cons, foldl_branch_core hw, branch]
    cases hr : readFrom (readLe width) afterCode with
    | none => simp only [filterMap_cons, hr, map_none]
    | some res => simp only [filterMap_cons, hr, map_some, foldl_cons, hw]

/-- **Refinement.** The search of the source is the library's search over
the tree of partial walks. -/
theorem walk_core (d : RecordStreamDescriptor) (n : ℕ) (body : List UInt8) (w : CandidateWalk)
    (s : ReframeSearch) : (ReframeSearch.walk d n body w s).core =
      dfs (searchProblem d) reframeStateBudget n (body, w) s.core := by
  by_cases hb : reframeStateBudget ≤ s.states
  · rw [walk_cut hb, dfs_cut hb]
    rfl
  by_cases hh : s.hopeless w = true
  · rw [walk_hopeless hb hh, dfs_beaten hb (s.hopeless_eq w ▸ hh)]
    rfl
  cases n with
  | zero =>
    rw [walk_zero hb hh, dfs_zero hb (s.hopeless_eq w ▸ hh)]
    cases body with
    | nil => rw [core_complete]; rfl
    | cons b bs => rfl
  | succ n =>
    rw [walk_succ hb hh, dfs_succ hb (s.hopeless_eq w ▸ hh)]
    simp only [searchProblem]
    cases hn : nextRecord d body with
    | unreadable => rfl
    | declared code value rest => exact walk_core d n rest _ s.enter
    | undeclared code afterCode =>
      have h := foldl_branch_core (walk_core d n) w code afterCode undeclaredReframeWidths
        (s.enter.meet code)
      rw [core_meet] at h
      exact h

/-! ### The first undeclared member -/

namespace ReframeSearch

theorem meet_isSome (s : ReframeSearch) (code : UInt16) :
    (s.meet code).firstUndeclared.isSome = true := by
  unfold meet
  split
  · rfl
  · rename_i h
    exact isSome_iff_ne_none.mpr fun hn => h (by rw [hn]; rfl)

theorem complete_firstUndeclared (s : ReframeSearch) (body : List UInt8) (w : CandidateWalk) :
    (s.complete body w).firstUndeclared = s.firstUndeclared := by
  unfold complete
  split
  · rfl
  split
  · rfl
  split <;> rfl

variable {d : RecordStreamDescriptor} {n : ℕ}

theorem foldl_branch_isSome
    (hw : ∀ body w (s : ReframeSearch), s.firstUndeclared.isSome = true →
      (walk d n body w s).firstUndeclared.isSome = true) (w : CandidateWalk) (code : UInt16)
    (afterCode : List UInt8) :
    ∀ (widths : List ℕ) (s : ReframeSearch), s.firstUndeclared.isSome = true →
      (widths.foldl (branch d n w code afterCode) s).firstUndeclared.isSome = true
  | [], _, hs => hs
  | width :: widths, s, hs => by
    refine foldl_branch_isSome hw w code afterCode widths _ ?_
    unfold branch
    split
    · exact hs
    · exact hw _ _ s hs

variable (d) in
theorem walk_isSome (n : ℕ) (body : List UInt8) (w : CandidateWalk) (s : ReframeSearch)
    (hs : s.firstUndeclared.isSome = true) :
    (walk d n body w s).firstUndeclared.isSome = true := by
  by_cases hb : reframeStateBudget ≤ s.states
  · rwa [walk_cut hb]
  by_cases hh : s.hopeless w = true
  · rwa [walk_hopeless hb hh]
  cases n with
  | zero => rwa [walk_zero hb hh, complete_firstUndeclared]
  | succ n =>
    rw [walk_succ hb hh]
    cases hn : nextRecord d body with
    | unreadable => exact hs
    | declared code value rest => exact walk_isSome n rest _ s.enter hs
    | undeclared code afterCode =>
      exact foldl_branch_isSome (walk_isSome n) w code afterCode _ _ (meet_isSome _ code)

theorem not_hopeless_of_none {s : ReframeSearch} (h : s.best = none) (w : CandidateWalk) :
    ¬ s.hopeless w = true := by
  simp [hopeless, h]

/-- With budget for the declared records before it, the search records the
first undeclared member. -/
theorem walk_reaches {body : List UInt8} {k : ℕ} (h : UndeclaredAt d n body k) :
    ∀ (w : CandidateWalk) (s : ReframeSearch), s.best = none →
      s.states + k < reframeStateBudget → (walk d n body w s).firstUndeclared.isSome = true := by
  induction h with
  | @here n body code afterCode hn =>
    intro w s hb hk
    rw [walk_succ (by omega) (not_hopeless_of_none hb w), hn]
    exact foldl_branch_isSome (walk_isSome d n) w code afterCode _ _ (meet_isSome _ code)
  | after hn _ ih =>
    intro w s hb hk
    rw [walk_succ (by omega) (not_hopeless_of_none hb w), hn]
    exact ih _ s.enter hb (by simp only [enter]; omega)

/-- Without it, the search is cut on the declared records. -/
theorem walk_falls_short {body : List UInt8} {k : ℕ} (h : UndeclaredAt d n body k) :
    ∀ (w : CandidateWalk) (s : ReframeSearch), s.best = none →
      reframeStateBudget ≤ s.states + k →
      (walk d n body w s).best = none ∧
        (walk d n body w s).firstUndeclared = s.firstUndeclared := by
  induction h with
  | here hn =>
    intro w s hbe hk
    rw [walk_cut (by omega)]
    exact ⟨hbe, rfl⟩
  | after hn _ ih =>
    intro w s hbe hk
    by_cases hb : reframeStateBudget ≤ s.states
    · rw [walk_cut hb]
      exact ⟨hbe, rfl⟩
    · rw [walk_succ hb (not_hopeless_of_none hbe w), hn]
      exact ih _ s.enter hbe (by simp only [enter]; omega)

end ReframeSearch

/-- The count word of a stream and the slice after it. -/
def Announces (bytes : List UInt8) (d : RecordStreamDescriptor) (count : ℕ) (body : List UInt8) :
    Prop :=
  ∃ n : UInt64, readFrom (readLe d.layout.countWidth) bytes = some (n, body) ∧ count = n.toNat

variable {d : RecordStreamDescriptor} {count : ℕ} {bytes body : List UInt8} {k : ℕ}

theorem Announces.unique {count' : ℕ} {body' : List UInt8} (h : Announces bytes d count body)
    (h' : Announces bytes d count' body') : count = count' ∧ body = body' := by
  obtain ⟨n, hn, rfl⟩ := h
  obtain ⟨n', hn', rfl⟩ := h'
  rw [hn] at hn'
  cases hn'
  exact ⟨rfl, rfl⟩

theorem parse_cases (bytes : List UInt8) (d : RecordStreamDescriptor) :
    ((∀ count body, ¬ Announces bytes d count body) ∧
      ∃ e, parseTypedRecordStream bytes d = .ok (.error e)) ∨
    (∃ count body outcome, Announces bytes d count body ∧
      walkDeclaredOnly body d count = some outcome ∧
      parseTypedRecordStream bytes d = .ok outcome) ∨
    (∃ count body, Announces bytes d count body ∧ walkDeclaredOnly body d count = none ∧
      parseTypedRecordStream bytes d = reframeUndeclared body d count) := by
  unfold parseTypedRecordStream
  rcases readFrom_unread (stable_readLe d.layout.countWidth) (Reader.new bytes) with
    ⟨n, r, hr, hf⟩ | ⟨e, hr, hf⟩
  · have ha : Announces bytes d n.toNat r.unread := ⟨n, hf, rfl⟩
    rw [hr]
    cases hw : walkDeclaredOnly r.unread d n.toNat with
    | some outcome => exact Or.inr (Or.inl ⟨_, _, outcome, ha, hw, by simp only [hw]⟩)
    | none => exact Or.inr (Or.inr ⟨_, _, ha, hw, by simp only [hw]⟩)
  · refine Or.inl ⟨fun count body ⟨n, hn, _⟩ => ?_, .decode e, by rw [hr]⟩
    rw [Reader.unread_new] at hf
    rw [hf] at hn
    cases hn

theorem reframeUndeclared_panics (h : UndeclaredAt d count body k) (hk : 4096 ≤ k) :
    reframeUndeclared body d count =
      .error ⟨"re-frame search only runs after an undeclared member was seen"⟩ := by
  obtain ⟨hb, hf⟩ := walk_falls_short h {} {} rfl (show 4096 ≤ 0 + k by omega)
  simp only [reframeUndeclared, hb, hf]

theorem reframeUndeclared_returns (h : UndeclaredAt d count body k) (hk : k < 4096) :
    ∃ r, reframeUndeclared body d count = .ok r := by
  have hs := walk_reaches h {} {} rfl (show 0 + k < 4096 by omega)
  obtain ⟨code, hc⟩ := isSome_iff_exists.mp hs
  simp only [reframeUndeclared, hc]
  split <;> exact ⟨_, rfl⟩

theorem parse_of_undeclaredAt (ha : Announces bytes d count body)
    (hk : UndeclaredAt d count body k) :
    parseTypedRecordStream bytes d = reframeUndeclared body d count := by
  have hn := (walkDeclaredFrom_none_iff d count [] (Reader.new body)).2 ⟨k, hk⟩
  rcases parse_cases bytes d with ⟨hno, -⟩ | ⟨count', body', outcome, ha', hw, -⟩ |
    ⟨count', body', ha', -, hp⟩
  · exact absurd ha (hno count body)
  · obtain ⟨rfl, rfl⟩ := ha.unique ha'
    rw [walkDeclaredOnly, hn] at hw
    cases hw
  · obtain ⟨rfl, rfl⟩ := ha.unique ha'
    exact hp

/-- **The decoder returns** (it does not panic) exactly on the streams whose
first undeclared member, if the strict walk meets one, comes after fewer than
4096 declared records. -/
theorem parse_returns_iff (bytes : List UInt8) (d : RecordStreamDescriptor) :
    (∃ r, parseTypedRecordStream bytes d = .ok r) ↔
      ∀ count body k, Announces bytes d count body → UndeclaredAt d count body k → k < 4096 := by
  constructor
  · rintro ⟨r, hr⟩ count body k ha hk
    by_contra hge
    rw [parse_of_undeclaredAt ha hk, reframeUndeclared_panics hk (by omega)] at hr
    cases hr
  · intro h
    rcases parse_cases bytes d with
      ⟨-, e, hp⟩ | ⟨-, -, outcome, -, -, hp⟩ | ⟨count, body, ha, hw, hp⟩
    · exact ⟨_, hp⟩
    · exact ⟨_, hp⟩
    · obtain ⟨k, hk⟩ := (walkDeclaredFrom_none_iff d count [] (Reader.new body)).1 hw
      rw [hp]
      exact reframeUndeclared_returns hk (h count body k ha hk)

theorem undeclaredAt_replicate {record last : List UInt8} {code code' : UInt16} {value : PropValue}
    {afterCode : List UInt8}
    (hrec : ∀ rest, nextRecord d (record ++ rest) = .declared code value rest)
    (hl : nextRecord d last = .undeclared code' afterCode) :
    ∀ k : ℕ, UndeclaredAt d (k + 1) ((List.replicate k record).flatten ++ last) k
  | 0 => .here hl
  | k + 1 => by
    rw [replicate_succ, flatten_cons, append_assoc]
    exact .after (hrec _) (undeclaredAt_replicate hrec hl k)

/-- 4096 records of the declared member `0x5001`, then the code `0x5002`. -/
def longStream : List UInt8 :=
  [0x01, 0x10] ++ ((List.replicate 4096 [0x01, 0x50, 0x00]).flatten ++ [0x02, 0x50])

/-- A descriptor accepted by its constructor on which the decoder panics. -/
theorem longStream_panics : ∃ d,
    RecordStreamDescriptor.new .d212 [(0x5001, .fixed 1)] = .ok d ∧
    parseTypedRecordStream longStream d =
      .error ⟨"re-frame search only runs after an undeclared member was seen"⟩ := by
  obtain ⟨d, hd, hco, hmem, hn⟩ : ∃ d,
      RecordStreamDescriptor.new .d212 [(0x5001, .fixed 1)] = .ok d ∧ d.layout = .d212 ∧
      d.members 0x5001 = some (.fixed 1) ∧ d.members 0x5002 = none := ⟨_, rfl, rfl, rfl, rfl⟩
  refine ⟨d, hd, ?_⟩
  have hw : ∀ v : UInt16, ∀ tail : List UInt8,
      readFrom (readLe 2) (leBytes 2 v.toNat ++ tail) = some (v.toUInt64, tail) :=
    fun v tail => readFrom_of_consumes ((consumes_u16 v).map _) tail
  have hrec : ∀ rest, nextRecord d ([0x01, 0x50, 0x00] ++ rest) =
    .declared 0x5001 (.u32 0) rest := by
    intro rest
    have hc : readFrom (readLe d.layout.codeWidth) ([0x01, 0x50, 0x00] ++ rest) =
        some (0x5001, [0x00] ++ rest) := by
      rw [hco]
      exact hw 0x5001 ([0x00] ++ rest)
    have hv : readFrom (recordValue (.fixed 1)) ([0x00] ++ rest) = some (.u32 0, rest) :=
      readFrom_of_consumes (((consumes_u8 0).map _).map _) rest
    have h16 : (0x5001 : UInt64).toUInt16 = 0x5001 := rfl
    simp only [nextRecord, hc, h16, hmem, hv]
  have hl : nextRecord d [0x02, 0x50] = .undeclared 0x5002 [] := by
    have hc : readFrom (readLe d.layout.codeWidth) [0x02, 0x50] = some (0x5002, []) := by
      rw [hco]
      exact hw 0x5002 []
    have h16 : (0x5002 : UInt64).toUInt16 = 0x5002 := rfl
    simp only [nextRecord, hc, h16, hn]
  have hat := undeclaredAt_replicate hrec hl 4096
  have ha : Announces longStream d 4097
      ((List.replicate 4096 [0x01, 0x50, 0x00]).flatten ++ [0x02, 0x50]) := by
    refine ⟨0x1001, ?_, rfl⟩
    rw [hco]
    exact hw 0x1001 _
  rw [parse_of_undeclaredAt ha hat, reframeUndeclared_panics hat (Nat.le_refl _)]

/-! ### All framings of a payload -/

/-- The walk `w` continued by `v`. -/
def CandidateWalk.append (w v : CandidateWalk) : CandidateWalk :=
  ⟨w.records ++ v.records, w.diagnostics ++ v.diagnostics, w.undeclared + v.undeclared⟩

variable (w v : CandidateWalk) (code : UInt16)

theorem CandidateWalk.push_append (value : PropValue) :
    (w.push code value).append v = w.append (v.cons code value) := by
  simp [push, append, cons]

theorem CandidateWalk.skip_append (value : UInt32) :
    (w.skip code value).append v = w.append (v.consSkip code value) := by
  simp [skip, append, consSkip]
  omega

theorem CandidateWalk.append_empty : w.append {} = w := by
  simp [append]

theorem CandidateWalk.empty_append : append {} w = w := by
  simp [append]

/-- The framings of an undeclared member at one width. -/
def framingsAt (code : UInt16) (afterCode : List UInt8)
    (framings : List UInt8 → List (List ℕ × CandidateWalk)) (width : ℕ) :
    List (List ℕ × CandidateWalk) :=
  match readFrom (readLe width) afterCode with
  | none => []
  | some (value, rest) =>
    (framings rest).map fun f => (width :: f.1, f.2.consSkip code value.toUInt32)

/-- Every framing of `n` records, by its widths. -/
def framings (d : RecordStreamDescriptor) : ℕ → List UInt8 → List (List ℕ × CandidateWalk)
  | 0, body => if body.isEmpty then [([], {})] else []
  | n + 1, body =>
    match nextRecord d body with
    | .unreadable => []
    | .declared code value rest => (framings d n rest).map fun f => (f.1, f.2.cons code value)
    | .undeclared code afterCode =>
      undeclaredReframeWidths.flatMap (framingsAt code afterCode (framings d n))

theorem mem_framings_iff (d : RecordStreamDescriptor) :
    ∀ (n : ℕ) (body : List UInt8) (ws : List ℕ) (w : CandidateWalk),
      (ws, w) ∈ framings d n body ↔ Frames d n body ws w
  | 0, body, ws, w => by
    cases body with
    | nil =>
      constructor
      · intro h
        cases mem_singleton.mp h
        exact .done
      · intro h
        cases h
        exact mem_singleton.mpr rfl
    | cons b bs =>
      constructor
      · intro h
        cases h
      · intro h
        cases h
  | n + 1, body, ws, w => by
    unfold framings
    cases hn : nextRecord d body with
    | unreadable =>
      constructor
      · intro h
        cases h
      · intro h
        cases h with
        | declared h' _ => rw [hn] at h'; cases h'
        | skipped h' _ _ _ => rw [hn] at h'; cases h'
    | declared code value rest =>
      constructor
      · intro h
        obtain ⟨⟨ws', w'⟩, hmem, heq⟩ := mem_map.mp h
        cases heq
        exact .declared hn ((mem_framings_iff d n rest ws' w').1 hmem)
      · intro h
        cases h with
        | declared h' hw =>
          rw [hn] at h'
          cases h'
          exact mem_map.mpr ⟨_, (mem_framings_iff d n rest ws _).2 hw, rfl⟩
        | skipped h' _ _ _ => rw [hn] at h'; cases h'
    | undeclared code afterCode =>
      constructor
      · intro h
        obtain ⟨width, hwi, hmem⟩ := mem_flatMap.mp h
        unfold framingsAt at hmem
        cases hr : readFrom (readLe width) afterCode with
        | none => simp [hr] at hmem
        | some res =>
          obtain ⟨value, rest⟩ := res
          simp only [hr] at hmem
          obtain ⟨⟨ws', w'⟩, hmem', heq⟩ := mem_map.mp hmem
          cases heq
          exact .skipped hn hwi hr ((mem_framings_iff d n rest ws' w').1 hmem')
      · intro h
        cases h with
        | declared h' _ => rw [hn] at h'; cases h'
        | @skipped _ _ _ _ width value rest ws' w' h' hwi hr hw =>
          rw [hn] at h'
          cases h'
          refine mem_flatMap.mpr ⟨width, hwi, ?_⟩
          simp only [framingsAt, hr]
          exact mem_map.mpr ⟨_, (mem_framings_iff d n rest ws' w').2 hw, rfl⟩

/-- A framing is determined by its widths. -/
theorem nodup_framings (d : RecordStreamDescriptor) :
    ∀ (n : ℕ) (body : List UInt8), ((framings d n body).map Prod.fst).Nodup
  | 0, body => by
    unfold framings
    split <;> simp
  | n + 1, body => by
    unfold framings
    cases hn : nextRecord d body with
    | unreadable => exact nodup_nil
    | declared code value rest =>
      rw [List.map_map]
      exact nodup_framings d n rest
    | undeclared code afterCode =>
      have hat : ∀ width, ((framingsAt code afterCode (framings d n) width).map Prod.fst).Nodup ∧
          ∀ ws ∈ (framingsAt code afterCode (framings d n) width).map Prod.fst,
            ws.head? = some width := by
        intro width
        unfold framingsAt
        cases readFrom (readLe width) afterCode with
        | none => exact ⟨nodup_nil, nofun⟩
        | some res =>
          have hc : ((framings d n res.2).map fun f => (width :: f.1,
              f.2.consSkip code res.1.toUInt32)).map Prod.fst =
              ((framings d n res.2).map Prod.fst).map (width :: ·) := by
            simp [List.map_map, Function.comp_def]
          simp only [hc]
          refine ⟨(nodup_framings d n res.2).map (cons_injective), fun ws hws => ?_⟩
          obtain ⟨ws', -, rfl⟩ := mem_map.mp hws
          rfl
      -- framings at different widths differ in the first one
      rw [map_flatMap, nodup_flatMap]
      refine ⟨fun width _ => (hat width).1, ?_⟩
      have hw : undeclaredReframeWidths.Nodup := by decide
      refine hw.imp fun {a b} hab => ?_
      intro ws ha hb
      have h := (hat a).2 ws ha
      rw [(hat b).2 ws hb] at h
      exact hab (Option.some.inj h).symm

/-- The solutions of the search tree are the framings, each continuing the
walk so far. -/
theorem solutions_eq (d : RecordStreamDescriptor) :
    ∀ (n : ℕ) (body : List UInt8) (w : CandidateWalk),
      solutions (searchProblem d) n (body, w) = ((framings d n body).map Prod.snd).map w.append
  | 0, body, w => by
    cases body with
    | nil =>
      show [w] = [w.append {}]
      rw [w.append_empty]
    | cons b bs => rfl
  | n + 1, body, w => by
    unfold solutions framings
    simp only [searchProblem]
    cases hn : nextRecord d body with
    | unreadable => rfl
    | declared code value rest =>
      simp only [flatMap_cons, flatMap_nil, append_nil]
      rw [← searchProblem.eq_def, solutions_eq d n rest]
      simp [List.map_map, Function.comp_def, push_append]
    | undeclared code afterCode =>
      rw [← searchProblem.eq_def]
      have hw : ∀ widths : List ℕ,
          (widths.filterMap fun width => (readFrom (readLe width) afterCode).map
            fun (value, rest) =>
            (rest, w.skip code value.toUInt32)).flatMap (solutions (searchProblem d) n) =
          ((widths.flatMap (framingsAt code afterCode (framings d n))).map Prod.snd).map
            w.append := by
        intro widths
        induction widths with
        | nil => rfl
        | cons width widths ih =>
          rw [flatMap_cons, map_append, map_append, ← ih, framingsAt]
          cases hr : readFrom (readLe width) afterCode with
          | none => simp [hr]
          | some res =>
            simp only [filterMap_cons, hr, map_some, flatMap_cons, solutions_eq d n res.2]
            simp [List.map_map, Function.comp_def, skip_append]
      exact hw undeclaredReframeWidths

/-- A framing of a whole stream: the announced count and all bytes after it.
-/
def FramingOf (bytes : List UInt8) (d : RecordStreamDescriptor) (ws : List ℕ) (w : CandidateWalk) :
    Prop :=
  ∃ count body, Announces bytes d count body ∧ Frames d count body ws w

/-- The one framing with fewer undeclared members than every other choice of
widths. -/
def UniqueMinimal (bytes : List UInt8) (d : RecordStreamDescriptor) (ws : List ℕ)
    (w : CandidateWalk) : Prop :=
  FramingOf bytes d ws w ∧
    ∀ ws' w', FramingOf bytes d ws' w' → ws' ≠ ws → w.undeclared < w'.undeclared

/-- The number of nodes of the unpruned search tree of a stream. -/
def searchNodes (d : RecordStreamDescriptor) (count : ℕ) (body : List UInt8) : ℕ :=
  size (searchProblem d) count (body, {})

theorem FramingOf.frames {ws : List ℕ} {w : CandidateWalk} (h : FramingOf bytes d ws w)
    (ha : Announces bytes d count body) : Frames d count body ws w := by
  obtain ⟨count', body', ha', hf⟩ := h
  obtain ⟨rfl, rfl⟩ := ha.unique ha'
  exact hf

/-- The cheapest solution of the search tree is the unique minimal framing.
-/
theorem cheapest_iff (ha : Announces bytes d count body) (w : CandidateWalk) :
    Choice.CheapestIn undeclared w (solutions (searchProblem d) count (body, {})) ↔
      ∃ ws, UniqueMinimal bytes d ws w := by
  have hid : (append {}) = id := funext empty_append
  rw [solutions_eq, hid, List.map_id, Choice.cheapestIn_named_iff _ (nodup_framings d count body)]
  constructor
  · rintro ⟨ws, hmem, hlt⟩
    refine ⟨ws, ⟨count, body, ha, (mem_framings_iff d count body ws w).1 hmem⟩, ?_⟩
    intro ws' w' hf hne
    exact hlt ws' w' ((mem_framings_iff d count body ws' w').2 (hf.frames ha)) hne
  · rintro ⟨ws, hf, hlt⟩
    refine ⟨ws, (mem_framings_iff d count body ws w).2 (hf.frames ha), fun ws' w' hmem hne => ?_⟩
    exact hlt ws' w' ⟨count, body, ha, (mem_framings_iff d count body ws' w').1 hmem⟩ hne

/-- The search returns a walk exactly when it was not cut and kept one
without a tie. -/
theorem reframeUndeclared_ok_iff (body : List UInt8) (d : RecordStreamDescriptor) (count : ℕ)
    (out : DecodedRecordStream) :
    reframeUndeclared body d count = .ok (.ok out) ↔
      ∃ w : CandidateWalk, out = ⟨w.records, w.diagnostics⟩ ∧
        (ReframeSearch.walk d count body {} {}).core.toChoice = ⟨some w, false⟩ ∧
        (ReframeSearch.walk d count body {} {}).core.exhausted = false := by
  unfold reframeUndeclared ReframeSearch.core
  generalize ReframeSearch.walk d count body {} {} = s
  obtain ⟨best, tie, states, exhausted, first⟩ := s
  cases best with
  | none => cases first <;> simp
  | some w =>
    cases tie <;> cases exhausted <;> cases first <;> simp [eq_comm]

/-- **Soundness and completeness of the re-frame search.** Whatever the
decoder returns with a skipped member is the unique minimal framing; and if
the unpruned search tree has at most 4096 nodes and there is a unique minimal
framing, the decoder returns it. -/
theorem reframe_unique_minimal (bytes : List UInt8) (d : RecordStreamDescriptor) :
    (∀ out, parseTypedRecordStream bytes d = .ok (.ok out) → out.diagnostics ≠ [] →
      ∃ ws w, out = ⟨w.records, w.diagnostics⟩ ∧ UniqueMinimal bytes d ws w) ∧
    (∀ count body ws w, Announces bytes d count body → searchNodes d count body ≤ 4096 →
      UniqueMinimal bytes d ws w →
      parseTypedRecordStream bytes d = .ok (.ok ⟨w.records, w.diagnostics⟩)) := by
  constructor
  · intro out hout hdi
    rcases parse_cases bytes d with ⟨-, e, hp⟩ | ⟨count, body, outcome, ha, hw, hp⟩ |
      ⟨count, body, ha, hw, hp⟩
    · rw [hp] at hout
      cases hout
    · rw [hp] at hout
      cases hout
      exact absurd (walkDeclaredFrom_diagnostics d count [] _ out hw) hdi
    · rw [hp, reframeUndeclared_ok_iff] at hout
      obtain ⟨w, rfl, hc, hex⟩ := hout
      rw [walk_core] at hc hex
      rw [dfs_choice_eq _ _ _ _ _ hex] at hc
      have hch := (Choice.considerAll_unique_iff undeclared _ w).1 hc
      obtain ⟨ws, hu⟩ := (cheapest_iff ha w).1 hch
      exact ⟨ws, w, rfl, hu⟩
  · intro count body ws w ha hn hu
    rcases parse_cases bytes d with ⟨hno, -⟩ | ⟨count', body', outcome, ha', hw, hp⟩ |
      ⟨count', body', ha', hw, hp⟩
    · exact absurd ha (hno count body)
    · obtain ⟨rfl, rfl⟩ := ha.unique ha'
      obtain ⟨rfl, hd⟩ := walkDeclaredFrom_frames d count [] (Reader.new body) ws w outcome hw
        (hu.1.frames ha)
      rw [hp, hd, nil_append]
    · obtain ⟨rfl, rfl⟩ := ha.unique ha'
      rw [hp, reframeUndeclared_ok_iff]
      have hwi := dfs_within (searchProblem d) reframeStateBudget count (body, {})
        (ReframeSearch.core {}) (show 0 + searchNodes d count body ≤ 4096 by omega)
      refine ⟨w, rfl, ?_, ?_⟩
      · rw [walk_core, dfs_choice_eq _ _ _ _ _ hwi.2]
        exact (Choice.considerAll_unique_iff undeclared _ w).2
          ((cheapest_iff ha w).2 ⟨ws, hu⟩)
      · rw [walk_core]
        exact hwi.2

/-- One declared record, then one byte under an undeclared code. -/
theorem reframe_unique_minimal_oneSkip : ∃ d,
    RecordStreamDescriptor.new .d212 [(0x5001, .fixed 1)] = .ok d ∧
    ∃ ws w, (⟨[(0x5001, .u32 7)], [.skippedUndeclaredMember 0x5009 5]⟩ : DecodedRecordStream) =
        ⟨w.records, w.diagnostics⟩ ∧
      UniqueMinimal [2, 0, 0x01, 0x50, 7, 0x09, 0x50, 5] d ws w := by
  obtain ⟨d, hd, hp⟩ : ∃ d, RecordStreamDescriptor.new .d212 [(0x5001, .fixed 1)] = .ok d ∧
      parseTypedRecordStream [2, 0, 0x01, 0x50, 7, 0x09, 0x50, 5] d =
        .ok (.ok ⟨[(0x5001, .u32 7)], [.skippedUndeclaredMember 0x5009 5]⟩) := ⟨_, rfl, rfl⟩
  exact ⟨d, hd, (reframe_unique_minimal _ d).1 _ hp nofun⟩

end Ptpsim.Primitives
