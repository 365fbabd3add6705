/-
# The chunk loops of the two walkers

Both walkers work a total off in windows, under the same cap, and put the slots
of a window back after its body (`chunk_loops_sweep`). They part at a window of
no bytes: the executor refuses it, the reference walker takes single bytes.
-/
import Ptpsim.Executor.Captures
import Ptpsim.Executor.Walk
import Ptpsim.Lib.Windows

namespace Ptpsim.Executor

open Config Windows
open Interrupt hiding Exec

namespace Reference

/-- The walk as its loops see it; `rest` is the engine and what was sent. -/
structure Walk (ρ : Type) extends Ctx where
  loopIterations : List ℕ
  rest : ρ

inductive LoopError (ε : Type) where
  | totalUnbound (here : Path) (total : String)
  | sizeUnbound (here : Path) (runtime : String)
  | exceeded (here : Path) (totalBytes : UInt64)
  | body (e : ε)

variable {ε ρ : Type}

def slots : Slots (Walk ρ) UInt64 where
  read s := s.bindings
  put s slot v := { s with bindings := Function.update s.bindings slot v }
  read_put _ _ _ := rfl

def resolveChunkSize (here : Path) (s : Walk ρ) : ChunkSize → Except (LoopError ε) UInt64
  | .literal v => .ok v.toUInt64
  | .runtime slot => (s.bindings slot).elim (.error (.sizeUnbound here slot)) .ok

def finish (iters : ℕ) (_ : Unit) : Interrupt.Exec (LoopError ε) Empty (Walk ρ) Unit :=
  modify fun s => { s with loopIterations := s.loopIterations ++ [iters] }

def runChunk (tolerant : Bool) (here : Path) (total : String) (size : ChunkSize)
    (offsetBind lengthBind : String) (body : ℕ → Interrupt.Exec (LoopError ε) Empty (Walk ρ) Unit) :
    Interrupt.Exec (LoopError ε) Empty (Walk ρ) Unit := fun s =>
  match s.bindings total, resolveChunkSize here s size with
  | none, _ => .error (.failed (.totalUnbound here total)) s
  | some _, .error e => .error (.failed e) s
  | some totalBytes, .ok size =>
    chunk totalBytes (max size 1)
      (fun iters => inWindow slots id offsetBind lengthBind (body iters))
      (fun iters last => if tolerant then finish iters last else
        throw (.failed (.exceeded here totalBytes))) finish maxChunkIters 0 0 () s

end Reference

variable {τ : Type} (here : Path) (total : String) (size : ChunkSize)
    (offsetBind lengthBind : String)

def slots : Slots (PtpCtx τ) ActionValue := ⟨PtpCtx.bindings, PtpCtx.restore, fun _ _ _ => rfl⟩

theorem chunkFrom_eq {total window : UInt64} {body : ℕ → Exec τ (Option TxMeta)} :
    ∀ (left : ℕ) (offset : UInt64) (index : ℕ) (last : Option TxMeta),
    chunkFrom here total window offsetBind lengthBind body left offset index last =
      chunk total window (fun index => inWindow slots .u64 offsetBind lengthBind (body index))
        (fun _ _ => fail (.other here .chunkWindows)) (fun _ => pure) left offset index last
  | 0, _, _, _ => rfl
  | left + 1, offset, index, last => by
    unfold chunkFrom chunk
    split
    · simp only [inWindow, bind_assoc]
      repeat' refine congrArg _ (funext fun _ => ?_)
      rename_i result _
      cases result with
      | ok txMeta => exact chunkFrom_eq left _ _ txMeta
      | error e => rfl
    · rfl

/-- The total and the window of a loop, where both are bound. -/
def span (read : String → Option UInt64) (total : String) (size : ChunkSize) :
    Option (UInt64 × UInt64) :=
  (read total).bind fun t => match size with
    | .literal v => some (t, v.toUInt64)
    | .runtime slot => (read slot).map (t, ·)

/-- What the slots hold, as the executor reads them. -/
def words (c : PtpCtx τ) (slot : String) : Option UInt64 := (c.bindings slot).bind actionValueU64

theorem slotU64_eq (slot : String) (e : StepError) (c : PtpCtx τ) :
    slotU64 slot e c = (words c slot).elim (fail e c) fun v => .ok v c := by
  unfold slotU64 words
  rw [bind_ok (show (get : Exec τ _) c = .ok c c from rfl)]
  cases (c.bindings slot).bind actionValueU64
  all_goals rfl

theorem chunkStep_cases (body : ℕ → Exec τ (Option TxMeta)) (c : PtpCtx τ) :
    (span (words c) total size = none ∧
      ∃ e, chunkStep here total size offsetBind lengthBind body c = fail e c) ∨
    ∃ t w, span (words c) total size = some (t, w) ∧
      chunkStep here total size offsetBind lengthBind body c =
        (if w = 0 then fail (.other here .chunkSizeZero) else
          chunk t w (fun index => inWindow slots .u64 offsetBind lengthBind (body index))
            (fun _ _ => fail (.other here .chunkWindows)) (fun _ => pure) maxChunkIters 0 0
              none) c := by
  unfold chunkStep span
  simp only [← chunkFrom_eq]
  cases ht : words c total with
  | none => exact .inl ⟨rfl, _, bind_error (by rw [slotU64_eq, ht]; rfl)⟩
  | some t =>
    rw [bind_ok (by rw [slotU64_eq, ht]; rfl)]
    cases size with
    | literal v => exact .inr ⟨t, _, rfl, rfl⟩
    | runtime slot =>
      cases hv : words c slot with
      | none =>
        exact .inl ⟨by simp [hv], _, bind_error (by rw [chunkWindow, slotU64_eq, hv]; rfl)⟩
      | some w =>
        exact .inr ⟨t, w, by simp [hv], by rw [bind_ok (by rw [chunkWindow, slotU64_eq, hv]; rfl)]⟩

theorem Reference.runChunk_cases {ε ρ : Type}
    (body : ℕ → Interrupt.Exec (LoopError ε) Empty (Walk ρ) Unit) (s : Walk ρ) :
    (span s.bindings total size = none ∧
      ∃ e, runChunk false here total size offsetBind lengthBind body s = .error (.failed e) s) ∨
    ∃ t w, span s.bindings total size = some (t, w) ∧
      runChunk false here total size offsetBind lengthBind body s =
        chunk t (max w 1) (fun iters => inWindow slots id offsetBind lengthBind (body iters))
          (fun _ _ => throw (.failed (.exceeded here t))) finish maxChunkIters 0 0 () s := by
  unfold runChunk span
  cases s.bindings total with
  | none => exact .inl ⟨rfl, _, rfl⟩
  | some t =>
    cases size with
    | literal v => exact .inr ⟨t, _, rfl, rfl⟩
    | runtime slot =>
      rw [resolveChunkSize]
      cases hv : s.bindings slot with
      | none => exact .inl ⟨by simp [hv], _, rfl⟩
      | some w => exact .inr ⟨t, w, by simp [hv], rfl⟩

/-- Both loops refuse the same slots, and do the work of the same windows, but
for a window of no bytes: the executor refuses it, the reference walker takes
the bytes one by one. Both put the slots of a window back. -/
theorem chunk_loops_sweep {ε ρ : Type} (body : ℕ → Exec τ (Option TxMeta))
    (body' : ℕ → Interrupt.Exec (Reference.LoopError ε) Empty (Reference.Walk ρ) Unit)
    (c : PtpCtx τ) (s : Reference.Walk ρ) (hs : words c = s.bindings) :
    (match span s.bindings total size with
    | none => (∃ e, chunkStep here total size offsetBind lengthBind body c = fail e c) ∧
        ∃ e, Reference.runChunk false here total size offsetBind lengthBind body' s =
          .error (.failed e) s
    | some (t, w) => ∃ ws,
        Tiles (max w 1).toNat 0 ws (min t.toNat (maxChunkIters * (max w 1).toNat)) ∧
        chunkStep here total size offsetBind lengthBind body c =
          (if w = 0 then fail (.other here .chunkSizeZero) else
            sweep slots .u64 offsetBind lengthBind body ws none >>=
              if maxChunkIters * (max w 1).toNat < t.toNat then
                fun _ => fail (.other here .chunkWindows) else pure) c ∧
        Reference.runChunk false here total size offsetBind lengthBind body' s =
          (sweep Reference.slots id offsetBind lengthBind body' ws () >>=
            if maxChunkIters * (max w 1).toNat < t.toNat then
              fun _ => throw (.failed (.exceeded here t)) else Reference.finish ws.length) s) ∧
    (offsetBind ≠ lengthBind →
      Kept (PutsBack slots offsetBind lengthBind)
        (chunkStep here total size offsetBind lengthBind body) ∧
      Kept (PutsBack Reference.slots offsetBind lengthBind)
        (Reference.runChunk false here total size offsetBind lengthBind body')) := by
  refine ⟨?_, fun hn => ⟨fun c => ?_, fun s => ?_⟩⟩
  · have hc := chunkStep_cases here total size offsetBind lengthBind body c
    have hr := Reference.runChunk_cases here total size offsetBind lengthBind body' s
    rw [hs] at hc
    rcases hc with ⟨h, hc⟩ | ⟨t, w, h, hc⟩ <;> rcases hr with ⟨h', hr⟩ | ⟨t', w', h', hr⟩
    · rw [h]
      exact ⟨hc, hr⟩
    · cases h.symm.trans h'
    · cases h.symm.trans h'
    · cases h.symm.trans h'
      obtain ⟨hpos, hmax⟩ := max_one w
      obtain ⟨ws, ht, he⟩ := exists_windows t hpos maxChunkIters 0 0 (Nat.zero_le _)
      simp only [UInt64.toNat_zero, Nat.zero_add, ite_apply] at ht he
      rw [h, hc, hr, he]
      refine ⟨ws, ht, ?_, rfl⟩
      by_cases hw : w = 0
      · rw [if_pos hw, if_pos hw]
      · rw [hmax hw] at he ⊢
        rw [if_neg hw, if_neg hw, he]
        rfl
  · have hc := composes_putsBack (ε := StepError) (κ := Except TransportError Unit)
      (slots (τ := τ)) offsetBind lengthBind
    rcases chunkStep_cases here total size offsetBind lengthBind body c with
      ⟨-, e, h⟩ | ⟨t, w, -, h⟩
    · rw [h]
      exact fun _ => ⟨rfl, rfl⟩
    · rw [h]
      split
      · exact fun _ => ⟨rfl, rfl⟩
      · exact kept_chunk hc (fun _ => kept_inWindow _ _ hn _) (fun _ _ _ _ => ⟨rfl, rfl⟩)
          (fun _ => .pure hc) _ _ _ _ c
  · have hc := composes_putsBack (ε := Reference.LoopError ε) (κ := Empty)
      (Reference.slots (ρ := ρ)) offsetBind lengthBind
    rcases Reference.runChunk_cases here total size offsetBind lengthBind body' s with
      ⟨-, e, h⟩ | ⟨t, w, -, h⟩
    · rw [h]
      exact fun _ => ⟨rfl, rfl⟩
    · rw [h]
      exact kept_chunk hc (fun _ => kept_inWindow _ _ hn _) (fun _ _ _ _ => ⟨rfl, rfl⟩)
        (fun _ _ _ _ => ⟨rfl, rfl⟩) _ _ _ _ s

/-- A total of five bytes, in windows of two. -/
theorem chunk_loops_sweep_five :
    (∃ ws, Tiles 2 0 ws 5 ∧
      chunkStep [] "total" (.literal 2) "offset" "length" (fun _ => pure none)
          { host := (), bindings := fun _ => some (.u64 5) } =
        sweep slots .u64 "offset" "length" (fun _ => pure none) ws none
          { host := (), bindings := fun _ => some (.u64 5) } ∧
      Reference.runChunk (ε := Empty) false [] "total" (.literal 2) "offset" "length"
          (fun _ => pure ()) ⟨⟨fun _ => some 5, fun _ => none⟩, [], ()⟩ =
        (sweep Reference.slots id "offset" "length" (fun _ => pure ()) ws () >>=
          Reference.finish ws.length) ⟨⟨fun _ => some 5, fun _ => none⟩, [], ()⟩) ∧
    Kept (PutsBack (slots (τ := Unit)) "offset" "length")
      (chunkStep [] "total" (.literal 2) "offset" "length" fun _ => pure none) := by
  obtain ⟨⟨ws, ht, hc, hr⟩, hk⟩ := chunk_loops_sweep (ε := Empty) [] "total" (.literal 2)
    "offset" "length" (fun _ => pure none) (fun _ => pure ())
    { host := (), bindings := fun _ => some (.u64 5) }
      ⟨⟨fun _ => some 5, fun _ => none⟩, [], ()⟩ rfl
  exact ⟨⟨ws, ht, hc.trans (congrFun (bind_pure _) _), hr⟩, (hk (by decide)).1⟩

/-- A window of zero stops the executor and not the reference walker. -/
theorem zero_window_refused :
    ending (chunkStep [] "total" (.literal 0) "offset" "length" (fun _ => pure none)
      { host := (), bindings := fun _ => some (.u64 1) }) ≠ none ∧
    ending (Reference.runChunk (ε := Empty) false [] "total" (.literal 0) "offset" "length"
      (fun _ => pure ()) ⟨⟨fun _ => some 1, fun _ => none⟩, [], ()⟩) = none :=
  ⟨nofun, rfl⟩

end Ptpsim.Executor
