/-
# Reading frames from a connection

`FrameReader.read_frame` collects one length-prefixed frame. It waits for the
connection at two points, with the rest of the length word or the rest of the
body to fill, and stores what it gets before it waits again. A call that is
dropped while it waits leaves its bytes behind in the reader, and the next
call picks them up: `start` is a call up to its first wait, `resume` what
happens when a read comes back. A reader that waits is determined by the bytes
it has taken of the current frame (`holding`), so nothing is lost or read
twice (`frames_split_stream`).
-/
import Ptpsim.Lib.LengthPrefixed
import Ptpsim.Lib.Machine

namespace Ptpsim.Service

open LengthPrefixed List

inductive FrameError where
  | partialPrefix
  | lengthExceedsRoleLimit
  | partialBody
deriving DecidableEq, Repr

/-- One frame's state. `prefixBytes` are the bytes of the length word so far;
`body` has its full length from the start, and `received` of its bytes are
filled. -/
structure FrameReader where
  prefixBytes : List UInt8 := []
  body : List UInt8 := []
  received : ℕ := 0
deriving DecidableEq

/-- A call waits for at most `room` bytes, or it returns a frame, nothing at
the end of the stream, or an error. -/
inductive FramePoll where
  | pending (room : ℕ)
  | ready (result : Except FrameError (Option (List UInt8)))

def validateFrameLength (length maximum : ℕ) : Except FrameError Unit :=
  if 8 ≤ length ∧ length ≤ maximum then .ok () else .error .lengthExceedsRoleLimit

namespace FrameReader

variable (limit : ℕ)

/-- The head of the loop that fills the body. -/
def fillBody (r : FrameReader) (length : ℕ) : FramePoll × FrameReader :=
  if r.received < length then (.pending (r.body.length - r.received), r)
  else (.ready (.ok (some r.body)), {})

/-- A call up to its first wait. The length is checked before a body is
allocated, and a body that is there already is kept. -/
def start (r : FrameReader) : FramePoll × FrameReader :=
  if r.prefixBytes.length < 4 then (.pending (4 - r.prefixBytes.length), r)
  else
    let length := leNat r.prefixBytes
    match validateFrameLength length limit with
    | .error e => (.ready (.error e), r)
    | .ok () =>
      let r := if r.body.isEmpty then
          { r with body := r.prefixBytes ++ List.replicate (length - 4) 0, received := 4 }
        else r
      r.fillBody length

/-- A read that a call has waited for comes back with the bytes of `chunk`,
none at the end of the stream. -/
def resume (r : FrameReader) (chunk : List UInt8) : FramePoll × FrameReader :=
  if r.prefixBytes.length < 4 then
    if chunk.length = 0 then
      (.ready (if r.prefixBytes.length = 0 then .ok none else .error .partialPrefix), r)
    else start limit { r with prefixBytes := r.prefixBytes ++ chunk }
  else if chunk.length = 0 then (.ready (.error .partialBody), r)
  else
    fillBody { r with
      body := r.body.take r.received ++ chunk ++ r.body.drop (r.received + chunk.length)
      received := r.received + chunk.length } (leNat r.prefixBytes)

end FrameReader

/-! ### A connection that is read frame by frame -/

/-- What may happen while a call waits: the connection hands over bytes, up to
`available + 1` of them, or the call is dropped and another one made. -/
inductive ReadEvent where
  | read (available : ℕ)
  | cancel

def ReadEvent.isRead : ReadEvent → Bool
  | .read _ => true
  | .cancel => false

/-- A reader on a connection, with the bytes still to come, the frames
returned, and how the reading ended. -/
structure Session where
  reader : FrameReader := {}
  input : List UInt8
  frames : List (List UInt8) := []
  ended : Option (Except FrameError Unit) := none

namespace Session

variable (limit : ℕ)

/-- The caller takes what a call returned, and calls again after a frame. -/
def take (s : Session) (reader : FrameReader) : FramePoll → Session
  | .pending _ => { s with reader := reader }
  | .ready (.ok (some frame)) => { s with reader := reader, frames := s.frames ++ [frame] }
  | .ready (.ok none) => { s with reader := reader, ended := some (.ok ()) }
  | .ready (.error e) => { s with reader := reader, ended := some (.error e) }

/-- How many bytes the waiting call can take. -/
def room (s : Session) : ℕ :=
  match (s.reader.start limit).1 with
  | .pending room => room
  | .ready _ => 0

def step (s : Session) (event : ReadEvent) : Unit × Session :=
  if s.ended.isSome then ((), s)
  else
    match event with
    | .cancel =>
      let (poll, reader) := s.reader.start limit
      ((), s.take reader poll)
    | .read available =>
      let count := min (s.room limit) (available + 1)
      let (poll, reader) := s.reader.resume limit (s.input.take count)
      ((), { s with input := s.input.drop count }.take reader poll)

/-- Reading a stream from its beginning. -/
def reads (stream : List UInt8) (events : List ReadEvent) : Session :=
  Machine.run (step limit) { input := stream } events

end Session

/-! ### A waiting reader and the bytes it holds -/

/-- The bytes a reader has taken of the current frame. -/
def FrameReader.held (r : FrameReader) : List UInt8 :=
  if r.body.isEmpty then r.prefixBytes else r.body.take r.received

/-- The beginning of a frame, the length word not yet complete or a length
that may be waited for. -/
def Unfinished (limit : ℕ) (p : List UInt8) : Prop :=
  p.length < 4 ∨ (Fits limit (declared p) ∧ p.length < declared p)

/-- How many bytes the next wait asks for. -/
def wanted (p : List UInt8) : ℕ := if p.length < 4 then 4 - p.length else declared p - p.length

/-- The reader that has taken the bytes `p` of a frame. -/
def holding (p : List UInt8) : FrameReader :=
  if p.length < 4 then { prefixBytes := p }
  else ⟨p.take 4, p ++ List.replicate (declared p - p.length) 0, p.length⟩

variable {p : List UInt8} {limit : ℕ}

theorem holding_short (h : p.length < 4) : holding p = { prefixBytes := p } := if_pos h

theorem holding_long (h : ¬ p.length < 4) :
    holding p = ⟨p.take 4, p ++ List.replicate (declared p - p.length) 0, p.length⟩ :=
  if_neg h

theorem body_holding_isEmpty (h : ¬ p.length < 4) : (holding p).body.isEmpty = false := by
  have hp : p ≠ [] := by
    rintro rfl
    simp at h
  rw [holding_long h]
  simp [hp]

theorem held_holding (p : List UInt8) : (holding p).held = p := by
  unfold FrameReader.held
  by_cases h : p.length < 4
  · rw [holding_short h]
    rfl
  · rw [body_holding_isEmpty h, holding_long h]
    simp

theorem wanted_pos (h : Unfinished limit p) : 0 < wanted p := by
  unfold wanted
  rcases h with h | ⟨_, h⟩ <;> split <;> omega

theorem validateFrameLength_fits {length : ℕ} (h : Fits limit length) :
    validateFrameLength length limit = .ok () :=
  if_pos h

theorem validateFrameLength_not_fits {length : ℕ} (h : ¬ Fits limit length) :
    validateFrameLength length limit = .error .lengthExceedsRoleLimit :=
  if_neg h

/-- The body is allocated at most once, with a length inside the limit. -/
theorem body_holding_le (h : Unfinished limit p) : (holding p).body.length ≤ limit := by
  by_cases hlen : p.length < 4
  · rw [holding_short hlen]
    exact Nat.zero_le limit
  · rcases h with h | ⟨hf, hlt⟩
    · exact absurd h hlen
    · have hle := hf.2
      rw [holding_long hlen]
      simp only [length_append, length_replicate]
      omega

theorem start_holding (h : Unfinished limit p) :
    (holding p).start limit = (.pending (wanted p), holding p) := by
  unfold FrameReader.start wanted
  by_cases hlen : p.length < 4
  · rw [holding_short hlen, if_pos hlen, if_pos hlen]
  · rcases h with h | ⟨hf, hlt⟩
    · exact absurd h hlen
    · have hw : (p.take 4).length = 4 := by
        rw [length_take]
        omega
      have hb := body_holding_isEmpty hlen
      rw [holding_long hlen] at hb ⊢
      have hv : validateFrameLength (leNat (p.take 4)) limit = .ok () := validateFrameLength_fits hf
      have hm : p.length < leNat (p.take 4) := hlt
      simp only [hw, hv, hb, FrameReader.fillBody, hlen]
      simp [hm]

theorem start_word {word : List UInt8} (hw : word.length = 4) :
    FrameReader.start limit { prefixBytes := word } =
      if Fits limit (declared word) then (.pending (wanted word), holding word)
      else (.ready (.error .lengthExceedsRoleLimit), { prefixBytes := word }) := by
  have ht : word.take 4 = word := take_of_length_le (by omega)
  have hd : leNat word = declared word := by
    unfold declared
    rw [ht]
  unfold FrameReader.start
  by_cases hf : Fits limit (declared word)
  · have hlen : ¬ word.length < 4 := by omega
    have hm : 4 < declared word := by
      have := hf.1
      omega
    rw [holding_long hlen, if_pos hf]
    simp only [hd, validateFrameLength_fits hf, FrameReader.fillBody, ht, hw, wanted]
    simp [hw, hm]
  · simp only [hd, validateFrameLength_not_fits hf, if_neg hf, hw]
    rfl

/-- What a read of `c` bytes does to a reader that holds `p`: it waits on,
returns the frame, or refuses its length. -/
theorem resume_holding {c : List UInt8} (h : Unfinished limit p) (hc : c ≠ [])
    (hr : c.length ≤ wanted p) :
    (Unfinished limit (p ++ c) ∧
      (holding p).resume limit c = (.pending (wanted (p ++ c)), holding (p ++ c))) ∨
    (IsFrame limit (p ++ c) ∧ (holding p).resume limit c = (.ready (.ok (some (p ++ c))), {})) ∨
    ((p ++ c).length = 4 ∧ ¬ Fits limit (declared (p ++ c)) ∧
      (holding p).resume limit c =
        (.ready (.error .lengthExceedsRoleLimit), { prefixBytes := p ++ c })) := by
  have hpos : c.length ≠ 0 := fun h0 => hc (length_eq_zero_iff.mp h0)
  have hto : (p ++ c).length = p.length + c.length := length_append
  unfold FrameReader.resume
  by_cases hlen : p.length < 4
  · -- the read goes to the length word
    rw [holding_short hlen, if_pos hlen, if_neg hpos]
    have hr' : c.length ≤ 4 - p.length := by
      rwa [wanted, if_pos hlen] at hr
    by_cases hw : (p ++ c).length = 4
    · rw [start_word hw]
      by_cases hf : Fits limit (declared (p ++ c))
      · have hu : Unfinished limit (p ++ c) := by
          have := hf.1
          exact .inr ⟨hf, by omega⟩
        exact .inl ⟨hu, if_pos hf⟩
      · exact .inr (.inr ⟨hw, hf, if_neg hf⟩)
    · have hs : (p ++ c).length < 4 := by omega
      have hu : Unfinished limit (p ++ c) := .inl hs
      have hst := start_holding hu
      rw [holding_short hs] at hst
      exact .inl ⟨hu, by rw [hst, holding_short hs]⟩
  · -- the read goes to the body
    rcases h with h | ⟨hf, hlt⟩
    · exact absurd h hlen
    · have hw : ¬ (p.take 4).length < 4 := by
        rw [length_take]
        omega
      have hr' : c.length ≤ declared p - p.length := by
        rwa [wanted, if_neg hlen] at hr
      have hd : declared (p ++ c) = declared p := declared_append (by omega) c
      have hb : (p ++ List.replicate (declared p - p.length) (0 : UInt8)).take p.length ++ c ++
          (p ++ List.replicate (declared p - p.length) 0).drop (p.length + c.length) =
          p ++ c ++ List.replicate (declared p - (p ++ c).length) 0 := by
        have hre : declared p - p.length - c.length = declared p - (p.length + c.length) := by
          omega
        simp [drop_append, hre]
      have hlo : ¬ (p ++ c).length < 4 := by omega
      have ht : (p ++ c).take 4 = p.take 4 := take_append_of_le_length (by omega)
      rw [holding_long hlen]
      simp only [if_neg hw, if_neg hpos, hb, FrameReader.fillBody]
      have hl : leNat (p.take 4) = declared p := rfl
      by_cases hm : p.length + c.length < declared p
      · left
        refine ⟨.inr ⟨by rwa [hd], by omega⟩, ?_⟩
        rw [hl, if_pos hm, holding_long hlo, wanted, if_neg hlo, ht, hd]
        simp only [length_append, length_replicate, Prod.mk.injEq, FramePoll.pending.injEq,
          and_true]
        omega
      · right
        left
        have hfu : declared p - (p ++ c).length = 0 := by omega
        refine ⟨⟨by rwa [hd], by omega⟩, ?_⟩
        rw [hl, if_neg hm, hfu]
        simp

/-! ### Whole sessions -/

/-- What a caller is told at the end of a cut. -/
def endResult : SplitEnd → Except FrameError Unit
  | .closed => .ok ()
  | .partialPrefix => .error .partialPrefix
  | .badLength => .error .lengthExceedsRoleLimit
  | .partialBody => .error .partialBody

theorem Session.step_of_ended {s : Session} (h : s.ended ≠ none) (event : ReadEvent) :
    (s.step limit event).2 = s := by
  have he : s.ended.isSome = true := Option.isSome_iff_ne_none.mpr h
  unfold Session.step
  rw [if_pos he]

/-- The session has read `stream` up to its current input: whole frames, then
the bytes in the reader. While it goes on, the reader waits inside a frame; it
has ended where the cut of the stream ends. -/
structure Session.Reads (limit : ℕ) (stream : List UInt8) (s : Session) : Prop where
  frames : ∀ frame ∈ s.frames, IsFrame limit frame
  stream_eq : s.frames.flatten ++ (s.reader.held ++ s.input) = stream
  body_le : s.reader.body.length ≤ limit
  waiting : s.ended = none → ∃ p, Unfinished limit p ∧ s.reader = holding p
  ending : ∀ r, s.ended = some r →
    ∃ e, split limit (s.reader.held ++ s.input) = ([], e) ∧ r = endResult e

namespace Session.Reads

variable {limit : ℕ} {stream : List UInt8} {s : Session}

variable (limit stream) in
theorem start : Reads limit stream { input := stream } where
  frames := by simp
  stream_eq := rfl
  body_le := Nat.zero_le limit
  waiting := fun _ => ⟨[], .inl (by decide), rfl⟩
  ending := fun _ h => nomatch h

theorem cancel (h : Reads limit stream s) : (s.step limit .cancel).2 = s := by
  by_cases he : s.ended = none
  · obtain ⟨p, hp, hr⟩ := h.waiting he
    have hs := start_holding hp
    rw [← hr] at hs
    have hg : ¬ s.ended.isSome = true := by simp [he]
    unfold Session.step
    simp only [if_neg hg, hs, take]
  · exact step_of_ended he .cancel

theorem read_end (h : Reads limit stream s) (he : s.ended = none) (hi : s.input = [])
    (available : ℕ) : Reads limit stream (s.step limit (.read available)).2 ∧
      (s.step limit (.read available)).2.ended ≠ none := by
  obtain ⟨p, hp, hrea⟩ := h.waiting he
  have hh : s.reader.held = p := by rw [hrea, held_holding]
  have hre : ∃ e, split limit p = ([], e) ∧ (holding p).resume limit [] =
      (.ready (match endResult e with
        | .ok () => .ok none
        | .error e => .error e), holding p) := by
    unfold FrameReader.resume
    by_cases hlen : p.length < 4
    · rw [holding_short hlen, if_pos hlen]
      by_cases hz : p = []
      · exact ⟨.closed, by rw [hz, split_nil], by rw [hz]; rfl⟩
      · have hpos : p.length ≠ 0 := fun h0 => hz (length_eq_zero_iff.mp h0)
        exact ⟨.partialPrefix, split_partialPrefix hz hlen, by simp [hpos, endResult]⟩
    · rcases hp with hp | ⟨hf, hlt⟩
      · exact absurd hp hlen
      · have hw : ¬ (p.take 4).length < 4 := by
          rw [length_take]
          omega
        rw [holding_long hlen, if_neg hw]
        exact ⟨.partialBody, split_partialBody (by omega) hf hlt, rfl⟩
  obtain ⟨e, hs, hre⟩ := hre
  rw [← hrea] at hre
  have hst : (s.step limit (.read available)).2 = { s with ended := some (endResult e) } := by
    unfold step
    simp only [he, hi, take_nil, drop_nil, hre]
    cases e <;> simp [take, endResult, ← hi]
  rw [hst]
  refine ⟨⟨h.frames, h.stream_eq, h.body_le, fun h => (nomatch h), ?_⟩, by simp⟩
  intro r hr
  refine ⟨e, ?_, (Option.some.inj hr).symm⟩
  rw [hh, hi, append_nil]
  exact hs

theorem read_more (h : Reads limit stream s) (he : s.ended = none) (hi : s.input ≠ [])
    (available : ℕ) : Reads limit stream (s.step limit (.read available)).2 ∧
      (s.step limit (.read available)).2.input.length < s.input.length := by
  obtain ⟨p, hp, hrea⟩ := h.waiting he
  have hro : s.room limit = wanted p := by
    unfold room
    rw [hrea, start_holding hp]
  have hw := wanted_pos hp
  set count := min (s.room limit) (available + 1) with hco
  have hinput_pos : 0 < s.input.length := length_pos_iff.mpr hi
  have hst : s.frames.flatten ++ (p ++ s.input) = stream := by
    rw [← h.stream_eq, hrea, held_holding]
  have hc : s.input.take count ≠ [] := by
    intro hnil
    have hlen := congrArg List.length hnil
    rw [length_take, length_nil] at hlen
    omega
  have hchunk_le : (s.input.take count).length ≤ wanted p := by
    rw [length_take]
    omega
  have hb : p ++ s.input.take count ++ s.input.drop count = p ++ s.input := by
    rw [append_assoc, take_append_drop]
  have hl : (s.input.drop count).length < s.input.length := by
    rw [length_drop]
    omega
  have hs : ∀ poll reader, (holding p).resume limit (s.input.take count) = (poll, reader) →
      (s.step limit (.read available)).2 = { s with input := s.input.drop count }.take reader
        poll := by
    intro poll reader hre
    rw [← hrea] at hre
    unfold step
    simp only [he, ← hco, hre]
    rfl
  rcases resume_holding hp hc hchunk_le with
    ⟨hu, hre⟩ | ⟨hf, hre⟩ | ⟨hwo, hfi, hre⟩
  · -- the frame is still unfinished
    rw [hs _ _ hre]
    refine ⟨⟨h.frames, ?_, body_holding_le hu, fun _ => ⟨_, hu, rfl⟩, ?_⟩, hl⟩
    · change s.frames.flatten ++ ((holding _).held ++ s.input.drop count) = stream
      rw [held_holding, hb, hst]
    · intro r hr
      rw [take, he] at hr
      exact nomatch hr
  · -- the frame is returned, and the next call waits for a length word
    rw [hs _ _ hre]
    refine ⟨⟨?_, ?_, Nat.zero_le limit, fun _ => ⟨[], .inl (by decide), rfl⟩, ?_⟩, hl⟩
    · intro frame hmem
      rcases mem_append.mp hmem with hmem | hmem
      · exact h.frames frame hmem
      · rw [mem_singleton.mp hmem]
        exact hf
    · change (s.frames ++ [p ++ s.input.take count]).flatten ++ ([] ++ s.input.drop count) = stream
      rw [flatten_append, flatten_singleton, nil_append, append_assoc, hb, hst]
    · intro r hr
      rw [take, he] at hr
      exact nomatch hr
  · -- the length is refused
    rw [hs _ _ hre]
    refine ⟨⟨h.frames, ?_, Nat.zero_le limit, fun hn => (nomatch hn), ?_⟩, hl⟩
    · change s.frames.flatten ++ (p ++ s.input.take count ++ s.input.drop count) = stream
      rw [hb, hst]
    · intro r hr
      refine ⟨.badLength, ?_, (Option.some.inj hr).symm⟩
      change split limit (p ++ s.input.take count ++ s.input.drop count) = _
      refine split_badLength ?_ ?_
      · rw [length_append]
        omega
      · rwa [declared_append (by omega)]

/-- Every event keeps the invariant, and a read that does not end the session
takes a byte. -/
theorem step (h : Reads limit stream s) (event : ReadEvent) :
    Reads limit stream (s.step limit event).2 ∧
      ((s.step limit event).2.ended = none → s.ended = none ∧
        (if event.isRead then 1 else 0) + (s.step limit event).2.input.length ≤
          s.input.length) := by
  by_cases he : s.ended = none
  · cases event with
    | cancel =>
      rw [h.cancel]
      exact ⟨h, fun _ => ⟨he, by simp [ReadEvent.isRead]⟩⟩
    | read available =>
      by_cases hi : s.input = []
      · obtain ⟨hr, hend⟩ := h.read_end he hi available
        exact ⟨hr, fun hn => absurd hn hend⟩
      · obtain ⟨hr, hl⟩ := h.read_more he hi available
        refine ⟨hr, fun _ => ⟨he, ?_⟩⟩
        simp only [ReadEvent.isRead, if_true]
        omega
  · rw [step_of_ended he event]
    exact ⟨h, fun hn => absurd hn he⟩

theorem split_eq (h : Reads limit stream s) : split limit stream =
    (s.frames ++ (split limit (s.reader.held ++ s.input)).1,
      (split limit (s.reader.held ++ s.input)).2) := by
  rw [← h.stream_eq]
  exact split_eq_of_frames s.frames _ h.frames

theorem ended (h : Reads limit stream s) {result : Except FrameError Unit}
    (he : s.ended = some result) :
    (split limit stream).1 = s.frames ∧ result = endResult (split limit stream).2 := by
  obtain ⟨e, hl, hr⟩ := h.ending result he
  have hs := h.split_eq
  rw [hl, append_nil] at hs
  rw [hs]
  exact ⟨rfl, hr⟩

end Session.Reads

def readCount (events : List ReadEvent) : ℕ := events.countP ReadEvent.isRead

theorem reads_run (limit : ℕ) (stream : List UInt8) (events : List ReadEvent) :
    (Session.reads limit stream events).Reads limit stream ∧
    ((Session.reads limit stream events).ended = none →
      readCount events + (Session.reads limit stream events).input.length ≤ stream.length) := by
  obtain ⟨hr, hc⟩ := Machine.run_progress (Session.step limit)
    (fun s => s.ended = none) ReadEvent.isRead (fun s => s.input.length)
    (fun s event h => h.step event) { input := stream } events (Session.Reads.start limit stream)
  exact ⟨hr, fun hg => (hc hg).2⟩

/-- **Frames are the cut of the stream.** For every stream, every size of the
reads and every set of dropped calls: the frames returned so far begin the cut
of the stream at its length words; they, the bytes in the reader and those
still to come make up the stream; no body is larger than the limit; a session
that has ended has returned the whole cut and ends as the cut does; and more
reads than the stream has bytes end the session. -/
theorem frames_split_stream (limit : ℕ) (stream : List UInt8) (events : List ReadEvent) :
    let s := Session.reads limit stream events
    (∃ later, (split limit stream).1 = s.frames ++ later) ∧
    s.frames.flatten ++ s.reader.held ++ s.input = stream ∧
    s.reader.body.length ≤ limit ∧ (∀ frame ∈ s.frames, frame.length ≤ limit) ∧
    (∀ result, s.ended = some result →
      (split limit stream).1 = s.frames ∧ result = endResult (split limit stream).2) ∧
    (stream.length < readCount events → s.ended ≠ none) := by
  obtain ⟨hr, hc⟩ := reads_run limit stream events
  have hs := hr.split_eq
  refine ⟨⟨_, congrArg Prod.fst hs⟩, ?_, hr.body_le, fun frame hmem => ?_,
    fun result he => hr.ended he, fun hlt hn => ?_⟩
  · rw [append_assoc]
    exact hr.stream_eq
  · have hf := hr.frames frame hmem
    rw [hf.length_eq]
    exact hf.fits.2
  · have := hc hn
    omega

end Ptpsim.Service
