/-
# The trace of streamed reads

The bytes that a streamed transfer receives are written to the trace in
chunks, each under the frame it belongs to. The reads need not end where frames
do: the length word of a frame is collected before the frame is begun, and what
a read brings beyond the end of a frame belongs to the next one. So the chunks
of a frame are its bytes in order, whatever the reads are (`chunks_tile_frames`).
-/
import Ptpsim.Lib.LengthPrefixed
import Ptpsim.Lib.Machine

namespace Ptpsim.Initiator

open LengthPrefixed List

structure StreamFrame where
  id : ℕ
  offset : ℕ
  remaining : ℕ

structure StreamTrace where
  pending : List UInt8 := []
  current : Option StreamFrame := none

/-- The records of the received command bytes. -/
inductive WireRecord where
  | wireStart (frameId length : ℕ)
  | wireChunk (frameId offset : ℕ) (bytes : List UInt8)
deriving DecidableEq

/-- The stream state of a session, how many frames were begun in it, and what
was written to the trace. -/
structure Tracer extends StreamTrace where
  begun : ℕ := 0
  records : List WireRecord := []

/-- A counter shared with the other writers of the trace: `ids n` is what the
session's frame `n` gets. -/
abbrev FrameIds := ℕ → ℕ

variable (ids : FrameIds)

/-- The frame that the next bytes belong to. The loop ends here while its
length is not complete, and fails if it is too small. -/
def nextFrame (t : Tracer) : Except (Except String Unit × Tracer) (StreamFrame × Tracer) :=
  match t.current with
  | some frame => .ok (frame, t)
  | none =>
    if t.pending.length < 4 then .error (.ok (), t)
    else
      let total := declared t.pending
      if total < 12 then
        .error (.error s!"streamed frame length {total} is smaller than its header",
          { t with pending := [] })
      else .ok (⟨ids t.begun, 0, total⟩, { t with
        begun := t.begun + 1
        records := t.records ++ [.wireStart (ids t.begun) total] })

/-- What there is of the frame is written. The loop goes on if that was the
rest of it. -/
def recordChunk (frame : StreamFrame) (t : Tracer) : Bool × Tracer :=
  if t.pending.isEmpty then (false, { t with current := some frame })
  else
    let taken := min frame.remaining t.pending.length
    let t : Tracer := { t with
      pending := t.pending.drop taken
      records := t.records ++ [.wireChunk frame.id frame.offset (t.pending.take taken)] }
    if frame.remaining - taken > 0 then
      (false, { t with current := some ⟨frame.id, frame.offset + taken, frame.remaining - taken⟩ })
    else (true, { t with current := none })

/-- Every round that the loop goes on after has taken a byte. -/
def traceLoop : ℕ → Tracer → Except String Unit × Tracer
  | 0, t => (.ok (), t)
  | fuel + 1, t =>
    match nextFrame ids t with
    | .error result => result
    | .ok (frame, t) =>
      let (goesOn, t) := recordChunk frame t
      if goesOn then traceLoop fuel t else (.ok (), t)

def traceStreamBytes (t : Tracer) (bytes : List UInt8) : Except String Unit × Tracer :=
  traceLoop ids (t.pending.length + bytes.length + 1) { t with pending := t.pending ++ bytes }

/-- A frame and the chunks of it. -/
abbrev Cut := List UInt8 × List (List UInt8)

/-- The chunks of a frame, each where the one before it ends. -/
def chunkRecords (id : ℕ) : ℕ → List (List UInt8) → List WireRecord
  | _, [] => []
  | offset, chunk :: chunks =>
    .wireChunk id offset chunk :: chunkRecords id (offset + chunk.length) chunks

/-- The records of frames, the first of which is the frame `n`. -/
def frameRecords : ℕ → List Cut → List WireRecord
  | _, [] => []
  | n, (frame, chunks) :: cuts => .wireStart (ids n) frame.length ::
    chunkRecords (ids n) 0 chunks ++ frameRecords (n + 1) cuts

theorem chunkRecords_append (id offset : ℕ) (chunks : List (List UInt8)) (chunk : List UInt8) :
    chunkRecords id offset (chunks ++ [chunk]) =
      chunkRecords id offset chunks ++ [.wireChunk id (offset + chunks.flatten.length) chunk] := by
  induction chunks generalizing offset with
  | nil => rfl
  | cons c chunks ih => simp [chunkRecords, ih, Nat.add_assoc]

theorem frameRecords_append (n : ℕ) (cuts : List Cut) (cut : Cut) :
    frameRecords ids n (cuts ++ [cut]) = frameRecords ids n cuts ++
      .wireStart (ids (n + cuts.length)) cut.1.length ::
        chunkRecords (ids (n + cuts.length)) 0 cut.2 := by
  induction cuts generalizing n with
  | nil => simp [frameRecords]
  | cons c cuts ih => simp [frameRecords, ih, Nat.add_assoc, Nat.add_comm 1]

variable (frames : List (List UInt8)) (received : List UInt8)

/-- What has been written of the frames, cut by cut, and what is pending. -/
structure Traced (cuts : List Cut) (t : Tracer) : Prop where
  frames : cuts.map Prod.fst <+: frames
  received : received = (cuts.flatMap Prod.snd).flatten ++ t.pending
  begun : t.begun = cuts.length
  records : t.records = frameRecords ids 0 cuts

def Whole (done : List Cut) : Prop := ∀ cut ∈ done, cut.2.flatten = cut.1

/-- The frame that has been begun is `chunks` and what is `left` of it. -/
def begunCut (chunks : List (List UInt8)) (left : List UInt8) : Cut :=
  (chunks.flatten ++ left, chunks)

/-- The states of the loop: between two frames, or inside one. -/
inductive Cuts : Option StreamFrame → Tracer → Prop
  | between {done : List Cut} {t : Tracer} (hw : Whole done)
      (h : Traced ids frames received done t) : Cuts none t
  | inside {done : List Cut} {chunks : List (List UInt8)} {left : List UInt8} {t : Tracer}
      (hw : Whole done) (hl : left ≠ [])
      (h : Traced ids frames received (done ++ [begunCut chunks left]) t) :
      Cuts (some ⟨ids done.length, chunks.flatten.length, left.length⟩) t

/-- The state between two reads: only bytes of a length are pending. -/
def Rests (t : Tracer) : Prop :=
  Cuts ids frames received t.current t ∧ t.pending.length ≤ 3 ∧ (t.current ≠ none → t.pending = [])

variable {ids frames received} {done last : List Cut} {t : Tracer}

theorem Whole.flatten (hw : Whole done) :
    (done.flatMap Prod.snd).flatten = (done.map Prod.fst).flatten := by
  rw [flatMap_def, flatten_flatten, map_map]
  exact congrArg List.flatten (map_congr_left hw)

theorem Traced.ahead (hw : Whole done) (h : Traced ids frames received (done ++ last) t)
    (hb : received <+: frames.flatten) : ∃ after, frames = (done ++ last).map Prod.fst ++ after ∧
      (last.flatMap Prod.snd).flatten ++ t.pending <+: (last.map Prod.fst).flatten ++
        after.flatten := by
  obtain ⟨after, hf⟩ := h.frames
  refine ⟨after, hf.symm, ?_⟩
  simpa [h.received, ← hf, hw.flatten] using hb

theorem Traced.chunk {c rest p : List UInt8} {chunks : List (List UInt8)}
    (h : Traced ids frames received (done ++ [begunCut chunks (c ++ rest)]) t)
    (hp : t.pending = c ++ p) (current : Option StreamFrame) :
    Traced ids frames received (done ++ [begunCut (chunks ++ [c]) rest]) { t with
      pending := p
      current := current
      records := t.records ++ [.wireChunk (ids done.length) chunks.flatten.length c] } where
  frames := by simpa [begunCut] using h.frames
  received := by simp [h.received, hp, begunCut]
  begun := by simp [h.begun]
  records := by
    rw [h.records, frameRecords_append, frameRecords_append]
    simp [chunkRecords_append, begunCut]

variable (hs : ∀ frame ∈ frames, 12 ≤ frame.length ∧ declared frame = frame.length)

include hs in
/-- The next frame is begun when its length is there. -/
theorem nextFrame_cuts (hb : received <+: frames.flatten)
    (h : Cuts ids frames received t.current t) :
    (nextFrame ids t = .error (.ok (), t) ∧ t.current = none ∧ t.pending.length ≤ 3) ∨
      ∃ frame t', nextFrame ids t = .ok (frame, t') ∧ Cuts ids frames received (some frame) t' ∧
        t'.pending = t.pending := by
  unfold nextFrame
  cases hc : t.current with
  | some frame => exact .inr ⟨frame, t, rfl, hc ▸ h, rfl⟩
  | none =>
    by_cases h4 : t.pending.length < 4
    · exact .inl ⟨if_pos h4, rfl, by omega⟩
    rw [hc] at h
    cases h with | @between done _ hw h
    rw [← append_nil done] at h
    obtain ⟨after, rfl, hp⟩ := h.ahead hw hb
    rw [append_nil] at h
    replace hp : t.pending <+: after.flatten := by simpa using hp
    cases after with
    | nil => simp_all
    | cons frame after =>
      obtain ⟨hmin, hd⟩ := hs frame (by simp)
      have hde : declared t.pending = frame.length := by
        obtain ⟨more, hm⟩ := hp
        rw [← declared_append (by omega) more, hm, flatten_cons, declared_append (by omega), hd]
      simp only [hde, h.begun]
      rw [if_neg h4, if_neg (by omega)]
      refine .inr ⟨_, _, rfl, @Cuts.inside _ _ _ done [] frame _ hw (length_pos_iff.mp (by omega))
        ⟨by simp [begunCut], by simp [begunCut, h.received], by simp, ?_⟩, rfl⟩
      rw [frameRecords_append, h.records]
      simp [chunkRecords, begunCut]

theorem recordChunk_cuts {frame : StreamFrame} (hb : received <+: frames.flatten)
    (h : Cuts ids frames received (some frame) t) :
    ∃ goesOn t', recordChunk frame t = (goesOn, t') ∧ Cuts ids frames received t'.current t' ∧
      if goesOn then t'.pending.length < t.pending.length else t'.pending = [] := by
  cases h with | @inside done chunks left _ hw hl h
  unfold recordChunk
  by_cases hnil : t.pending = []
  · rw [if_pos (by simp [hnil])]
    exact ⟨_, _, rfl, .inside hw hl ⟨h.frames, h.received, h.begun, h.records⟩, hnil⟩
  rw [if_neg (by simpa using hnil)]
  obtain ⟨after, -, hp⟩ := h.ahead hw hb
  replace hp : t.pending <+: left ++ after.flatten := by simpa [begunCut] using hp
  by_cases hlt : t.pending.length < left.length
  · obtain ⟨rest, rfl⟩ := prefix_of_prefix_length_le hp (prefix_append ..) hlt.le
    rw [length_append] at hlt
    simp only [length_append, Nat.min_eq_right (Nat.le_add_right ..), Nat.add_sub_cancel_left,
      if_pos (show rest.length > 0 by omega)]
    refine ⟨_, _, rfl, ?_, by simp⟩
    have hc := h.chunk (append_nil _).symm
      (some ⟨ids done.length, (chunks ++ [t.pending]).flatten.length, rest.length⟩)
    simpa using Cuts.inside hw (length_pos_iff.mp (by omega)) hc
  · obtain ⟨p, hpe⟩ := prefix_of_prefix_length_le (prefix_append ..) hp (by omega)
    have hpos : 0 < left.length := length_pos_iff.mpr hl
    simp only [← hpe, length_append, Nat.min_eq_left (Nat.le_add_right ..), Nat.sub_self, gt_iff_lt,
      Nat.lt_irrefl, if_false, drop_left, take_left]
    rw [← append_nil left] at h
    refine ⟨_, _, rfl, .between ?_ (h.chunk hpe.symm none), by simpa⟩
    exact forall_mem_append.mpr ⟨hw, by simp [begunCut]⟩

include hs in
theorem traceLoop_cuts (hb : received <+: frames.flatten) :
    ∀ (fuel : ℕ) (t : Tracer), t.pending.length < fuel → Cuts ids frames received t.current t →
      ∃ t', traceLoop ids fuel t = (.ok (), t') ∧ Rests ids frames received t'
  | fuel + 1, t, hf, h => by
    rw [traceLoop]
    rcases nextFrame_cuts hs hb h with ⟨hn, hc, hp⟩ | ⟨frame, t₁, hn, h₁, hp⟩
    · exact ⟨t, by rw [hn], h, hp, fun hne => absurd hc hne⟩
    rw [← hp] at hf
    obtain ⟨goesOn, t₂, hr, h₂, hp₂⟩ := recordChunk_cuts hb h₁
    simp only [hn, hr]
    cases goesOn with
    | true =>
      simp only [if_true] at hp₂ ⊢
      exact traceLoop_cuts hb fuel t₂ (by omega) h₂
    | false => exact ⟨t₂, rfl, h₂, by simp_all, fun _ => hp₂⟩

theorem Cuts.read {bytes : List UInt8} {current : Option StreamFrame}
    (h : Cuts ids frames received current t) :
    Cuts ids frames (received ++ bytes) current { t with pending := t.pending ++ bytes } := by
  cases h with
  | between hw h => exact .between hw ⟨h.frames, by simp [h.received], h.begun, h.records⟩
  | inside hw hl h => exact .inside hw hl ⟨h.frames, by simp [h.received], h.begun, h.records⟩

include hs in
theorem traceStreamBytes_rests : ∀ (reads : List (List UInt8)) (received : List UInt8) (t : Tracer),
    Rests ids frames received t → received ++ reads.flatten <+: frames.flatten →
    (∀ o ∈ Machine.outputs (traceStreamBytes ids) t reads, o = .ok ()) ∧
      Rests ids frames (received ++ reads.flatten) (Machine.run (traceStreamBytes ids) t reads)
  | [], received, t, h, _ => ⟨by simp [Machine.outputs], by simpa [Machine.run] using h⟩
  | bytes :: reads, received, t, h, hp => by
    rw [flatten_cons, ← append_assoc] at hp ⊢
    obtain ⟨t', hl, h'⟩ := traceLoop_cuts hs ((prefix_append _ _).trans hp)
      (t.pending.length + bytes.length + 1) { t with pending := t.pending ++ bytes } (by simp)
        h.1.read
    obtain ⟨ho, hr⟩ := traceStreamBytes_rests reads _ t' h' hp
    rw [Machine.outputs, Machine.run, traceStreamBytes, hl]
    exact ⟨forall_mem_cons.mpr ⟨rfl, ho⟩, hr⟩

/-- **The chunks of a frame are the frame.** The records of every frame follow
each other, its beginning first, then its chunks from offset zero on, each where
the one before it ends. All frames but the last are written to their end, and
the last one as far as it was received; what was received and not written is at
most three bytes of a length. -/
theorem chunks_tile_frames (ids : FrameIds) (frames : List (List UInt8))
    (hs : ∀ frame ∈ frames, 12 ≤ frame.length ∧ declared frame = frame.length)
    (reads : List (List UInt8)) (hr : reads.flatten <+: frames.flatten) :
    (∀ o ∈ Machine.outputs (traceStreamBytes ids) {} reads, o = .ok ()) ∧
      ∃ (done : List Cut) (last : Option Cut) (rest : List UInt8),
        (Machine.run (traceStreamBytes ids) {} reads).records =
          frameRecords ids 0 (done ++ last.toList) ∧
        (done ++ last.toList).map Prod.fst <+: frames ∧
        (∀ cut ∈ done, cut.2.flatten = cut.1) ∧
        (∀ cut ∈ last, cut.2.flatten <+: cut.1 ∧ rest = []) ∧
        reads.flatten = ((done ++ last.toList).flatMap Prod.snd).flatten ++ rest ∧
        rest.length ≤ 3 := by
  have h0 : Rests ids frames [] {} :=
    ⟨.between (forall_mem_nil _) ⟨by simp, rfl, rfl, rfl⟩, by decide, fun h => absurd rfl h⟩
  obtain ⟨ho, hc, h3, hi⟩ := traceStreamBytes_rests hs reads [] {} h0 hr
  refine ⟨ho, ?_⟩
  rw [← nil_append reads.flatten]
  generalize Machine.run (traceStreamBytes ids) {} reads = t at hc h3 hi
  generalize t.current = current at hc hi
  cases hc with
  | @between done _ hw h =>
    exact ⟨done, none, t.pending, by simp [h.records], by simpa using h.frames, hw, by simp,
      by simpa using h.received, h3⟩
  | @inside done chunks left _ hw hl h =>
    refine ⟨done, some (begunCut chunks left), [], h.records, h.frames, hw, by simp [begunCut], ?_,
      by simp⟩
    simpa [hi] using h.received

/-- A length that comes in two reads. -/
theorem chunks_tile_frames_split :
    let frame : List UInt8 := 12 :: replicate 11 0
    let step := traceStreamBytes id
    (∀ o ∈ Machine.outputs step {} [frame.take 3, frame.drop 3], o = .ok ()) ∧
      (Machine.run step {} [frame.take 3, frame.drop 3]).records =
        [.wireStart 0 12, .wireChunk 0 0 frame] :=
  ⟨(chunks_tile_frames id [12 :: replicate 11 0] (by decide) _ (by decide)).1, by decide⟩

end Ptpsim.Initiator
