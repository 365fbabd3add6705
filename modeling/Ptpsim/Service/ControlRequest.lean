/-
# Reading a request on the control socket

`read_request_before` collects what comes in and runs
`parse_request_if_complete` on all of it after every read, until the parser
accepts or rejects. At most `MAX_REQUEST_BYTES` are buffered, at most
`MAX_HEADER_BYTES` of them for the head. The verdicts of the parser are final
(`parse_isFinal`): the head is looked at only once its end is there, and then it
is the same bytes in every longer buffer.

Lines are lists of bytes here; the head is checked to be UTF-8 before it is
split, and all separators are ASCII.
-/
import Ptpsim.Lib.Incremental
import Ptpsim.Lib.Machine
import Mathlib.Algebra.Group.Nat.Defs

namespace Ptpsim.Service

open Incremental List

def maxRequestBytes : ℕ := 64 * 1024
def maxHeaderBytes : ℕ := 16 * 1024

/-- The size of the array a read fills. -/
def chunkBytes : ℕ := 1024

structure Request where
  method : String
  path : String
  body : List UInt8
deriving DecidableEq, Repr

inductive RequestError where
  | tooLarge
  | invalid (message : String)
deriving DecidableEq, Repr

/-- A refusal, with the text that its JSON body gives as `error`. -/
structure Response where
  status : String
  error : String
deriving DecidableEq, Repr

def Response.badRequest (error : String) : Response := ⟨"400 Bad Request", error⟩

def RequestError.response : RequestError → Response
  | .tooLarge => ⟨"413 Payload Too Large", "request too large"⟩
  | .invalid message => Response.badRequest message

/-! ### Bytes of text -/

def ascii (text : String) : List UInt8 := text.toList.map fun c => UInt8.ofNat c.toNat

def asciiString (bytes : List UInt8) : String :=
  String.ofList (bytes.map fun b => Char.ofNat b.toNat)

def isAscii (b : UInt8) : Bool := b < 128

def isAsciiControl (b : UInt8) : Bool := b < 32 || b == 127

def isAsciiDigit (b : UInt8) : Bool := 48 ≤ b && b ≤ 57

def isAsciiAlphanumeric (b : UInt8) : Bool :=
  isAsciiDigit b || (65 ≤ b && b ≤ 90) || (97 ≤ b && b ≤ 122)

def toAsciiLowercase (b : UInt8) : UInt8 := if 65 ≤ b && b ≤ 90 then b + 32 else b

def eqIgnoreAsciiCase (x y : List UInt8) : Bool := x.map toAsciiLowercase == y.map toAsciiLowercase

def isToken (value : List UInt8) : Bool :=
  !value.isEmpty && value.all fun b => isAsciiAlphanumeric b || (ascii "!#$%&'*+-.^_`|~").contains b

/-- The lines of a head: `split("\r\n")`. -/
def byteLines : List UInt8 → List (List UInt8)
  | [] => [[]]
  | 13 :: 10 :: rest => [] :: byteLines rest
  | b :: rest =>
    match byteLines rest with
    | [] => [[b]]
    | line :: lines => (b :: line) :: lines

/-- `split_once(':')` -/
def splitOnceColon (line : List UInt8) : Option (List UInt8 × List UInt8) :=
  match line.span (· != 58) with
  | (_, []) => none
  | (name, _ :: value) => some (name, value)

/-- `trim_matches([' ', '\t'])` -/
def trimBlanks (value : List UInt8) : List UInt8 :=
  let isBlank : UInt8 → Bool := fun b => b == 32 || b == 9
  ((value.dropWhile isBlank).reverse.dropWhile isBlank).reverse

/-- The number of a list of digits. `parse::<usize>` refuses what does not fit
into 64 bits. -/
def parseUsize (digits : List UInt8) : Option ℕ :=
  let n := digits.foldl (fun n b => 10 * n + (b.toNat - 48)) 0
  if n < 2 ^ 64 then some n else none

/-! ### The parser -/

/-- The request line and what the headers say about the body. -/
structure Head where
  method : List UInt8
  path : List UInt8
  contentLength : Option ℕ
deriving DecidableEq

def parseRequestLine (line : List UInt8) : Except RequestError (List UInt8 × List UInt8) :=
  let parts := line.splitOn 32
  let method := parts.getD 0 []
  let path := parts.getD 1 []
  let version := parts.getD 2 []
  if !isToken method || path.isEmpty || !(path.all fun b => isAscii b && !isAsciiControl b)
      || !(version == ascii "HTTP/1.0" || version == ascii "HTTP/1.1") || 3 < parts.length then
    .error (.invalid "malformed request line")
  else .ok (method, path)

/-- One round of the loop over the header lines. -/
def parseHeader (contentLength : Option ℕ) (line : List UInt8) :
    Except RequestError (Option ℕ) :=
  match splitOnceColon line with
  | none => .error (.invalid "malformed header")
  | some (name, value) =>
    if !isToken name || value.any fun b => isAsciiControl b && b != 9 then
      .error (.invalid "malformed header")
    else if eqIgnoreAsciiCase name (ascii "transfer-encoding") then
      .error (.invalid "Transfer-Encoding is unsupported")
    else if eqIgnoreAsciiCase name (ascii "content-length") then
      if contentLength.isSome then .error (.invalid "duplicate Content-Length")
      else
        let value := trimBlanks value
        if value.isEmpty || !(value.all isAsciiDigit) then
          .error (.invalid "invalid Content-Length")
        else
          match parseUsize value with
          | none => .error (.invalid "invalid Content-Length")
          | some length => .ok (some length)
    else .ok contentLength

def parseHead (headers : List UInt8) : Except RequestError Head :=
  if !ByteArray.validateUTF8 ⟨headers.toArray⟩ then
    .error (.invalid "request headers are not UTF-8")
  else do
    let lines := byteLines headers
    let (method, path) ← parseRequestLine (lines.headD [])
    let contentLength ← lines.tail.foldlM parseHeader none
    .ok { method, path, contentLength }

/-- The empty line after the head, with the end of the line before it. -/
def headEnd : List UInt8 := [13, 10, 13, 10]

def parseRequestIfComplete (buf : List UInt8) : Except RequestError (Option Request) :=
  if maxRequestBytes < buf.length then .error .tooLarge
  else
    match position headEnd buf with
    | none => if maxHeaderBytes ≤ buf.length then .error .tooLarge else .ok none
    | some split =>
      let bodyStart := split + 4
      if maxHeaderBytes < bodyStart then .error .tooLarge
      else
        match parseHead (buf.take split) with
        | .error e => .error e
        | .ok head =>
          let bodyEnd := bodyStart + head.contentLength.getD 0
          -- `checked_add`, then the limit
          if 2 ^ 64 ≤ bodyEnd then .error .tooLarge
          else if maxRequestBytes < bodyEnd then .error .tooLarge
          else if buf.length < bodyEnd then .ok none
          else .ok (some
            { method := asciiString head.method
              path := asciiString head.path
              body := (buf.take bodyEnd).drop bodyStart })

/-! ### The reading loop -/

/-- A call of `read_request_before`, with the bytes still to come. -/
structure RequestRead where
  buf : List UInt8 := []
  input : List UInt8
  outcome : Option (Except Response (Option Request)) := none

namespace RequestRead

/-- How many bytes the next read may bring. -/
def available (s : RequestRead) : ℕ := min chunkBytes (maxRequestBytes - s.buf.length)

/-- One round of the loop: a read brings up to `count + 1` bytes, none at the
end of the stream. -/
def step (s : RequestRead) (count : ℕ) : Unit × RequestRead :=
  if s.outcome.isSome then ((), s)
  else
    let n := min s.available (count + 1)
    let chunk := s.input.take n
    if chunk.length = 0 then
      ((), { s with
        outcome := some (if s.buf.isEmpty then .ok none
          else .error (.badRequest "client closed before full request")) })
    else
      let s := { s with buf := s.buf ++ chunk, input := s.input.drop n }
      match parseRequestIfComplete s.buf with
      | .error e => ((), { s with outcome := some (.error e.response) })
      | .ok (some request) => ((), { s with outcome := some (.ok (some request)) })
      | .ok none => ((), s)

/-- Reading a stream that is cut into reads. -/
def reads (stream : List UInt8) (cuts : List ℕ) : RequestRead :=
  Machine.run step { input := stream } cuts

end RequestRead

/-- What the stream says, without any cuts: the parser's verdict on what may be
buffered, or else whether there was anything. -/
def requestOutcome (stream : List UInt8) : Except Response (Option Request) :=
  match parseRequestIfComplete (stream.take maxRequestBytes) with
  | .error e => .error e.response
  | .ok (some request) => .ok (some request)
  | .ok none =>
    if stream.isEmpty then .ok none
    else .error (.badRequest "client closed before full request")

/-! ### The verdicts are final -/

/-- A head that is not there yet can only come too late, if it is already too
late. -/
theorem parse_append_of_no_head {p q : List UInt8} (hlen : (p ++ q).length ≤ maxRequestBytes)
    (hn : position headEnd p = none) (hl : maxHeaderBytes ≤ p.length) :
    parseRequestIfComplete (p ++ q) = .error .tooLarge := by
  have hf : ¬ maxRequestBytes < (p ++ q).length := Nat.not_lt.mpr hlen
  unfold parseRequestIfComplete
  rw [if_neg hf]
  rcases hlat : position headEnd (p ++ q) with _ | split
  · have hl' : maxHeaderBytes ≤ (p ++ q).length := by
      rw [length_append]
      omega
    exact if_pos hl'
  · have ha := position_append_of_none hn hlat
    have hla : maxHeaderBytes < split + 4 := Nat.lt_of_le_of_lt hl ha
    exact if_pos hla

/-- Once the end of the head is there, more bytes can only complete the
body. -/
theorem parse_append_of_head {p q : List UInt8} {split : ℕ}
    (hlen : (p ++ q).length ≤ maxRequestBytes) (hh : position headEnd p = some split)
    (hv : parseRequestIfComplete p ≠ .ok none) :
    parseRequestIfComplete (p ++ q) = parseRequestIfComplete p := by
  have hle : split + 4 ≤ p.length := position_le hh
  have hla : position headEnd (p ++ q) = some split := position_append (by decide) hh q
  have hf : ¬ maxRequestBytes < (p ++ q).length := Nat.not_lt.mpr hlen
  have hf' : ¬ maxRequestBytes < p.length := by
    rw [length_append] at hf
    omega
  have hs : (p ++ q).take split = p.take split := take_append_of_le_length (by omega)
  unfold parseRequestIfComplete at hv ⊢
  simp only [hh, hla, if_neg hf, if_neg hf', hs] at hv ⊢
  by_cases hl : maxHeaderBytes < split + 4
  · simp only [if_pos hl]
  · simp only [if_neg hl] at hv ⊢
    rcases hp : parseHead (p.take split) with e | head
    · rfl
    · simp only [hp] at hv ⊢
      generalize split + 4 + head.contentLength.getD 0 = bodyEnd at hv ⊢
      -- the body is complete in `p`, for otherwise there was no verdict
      by_cases hc : p.length < bodyEnd
      · rw [if_pos hc] at hv
        split_ifs at hv ⊢ <;> first | rfl | exact absurd rfl hv
      · have hc' : ¬ (p ++ q).length < bodyEnd := by
          rw [length_append]
          omega
        rw [if_neg hc, if_neg hc', take_append_of_le_length (by omega)]

/-- A full buffer without the end of a head is too long for one, and with it
there is no body it does not hold. -/
theorem parse_full {p : List UInt8} (hlen : p.length = maxRequestBytes) :
    parseRequestIfComplete p ≠ .ok none := by
  have hf : ¬ maxRequestBytes < p.length := by omega
  unfold parseRequestIfComplete
  rw [if_neg hf]
  rcases position headEnd p with _ | split
  · have hlo : maxHeaderBytes ≤ p.length := by
      rw [hlen]
      decide
    simp [hlo]
  · by_cases hl : maxHeaderBytes < split + 4
    · simp [hl]
    · simp only [if_neg hl]
      rcases parseHead (p.take split) with e | head
      · simp
      · dsimp only
        split_ifs <;> first | omega | simp

theorem parse_isFinal : IsFinal parseRequestIfComplete maxRequestBytes where
  full := fun _ => parse_full
  append := by
    intro p q hlen hv
    rcases hh : position headEnd p with _ | split
    · have hf : ¬ maxRequestBytes < p.length := by
        rw [length_append] at hlen
        omega
      -- without the end of a head the only verdict is that it comes too late
      by_cases hl : maxHeaderBytes ≤ p.length
      · rw [parse_append_of_no_head hlen hh hl]
        simp [parseRequestIfComplete, hf, hh, hl]
      · simp [parseRequestIfComplete, hf, hh, hl] at hv
    · exact parse_append_of_head hlen hh hv

theorem parse_nil : parseRequestIfComplete [] = .ok none := rfl

/-! ### Whole readings -/

theorem requestOutcome_of_verdict {p : List UInt8} (hp : p.length ≤ maxRequestBytes)
    (hv : parseRequestIfComplete p ≠ .ok none) (q : List UInt8) :
    requestOutcome (p ++ q) =
      match parseRequestIfComplete p with
      | .error e => .error e.response
      | .ok request => .ok request := by
  unfold requestOutcome
  rw [parse_isFinal.take_limit hp hv q]
  rcases hpa : parseRequestIfComplete p with e | _ | request
  · rfl
  · exact absurd hpa hv
  · rfl

/-- The buffer and what is still to come make up the stream. While the reading
goes on, the parser has asked for more; it has ended as the stream says. -/
structure RequestRead.Reads (stream : List UInt8) (s : RequestRead) : Prop where
  stream_eq : s.buf ++ s.input = stream
  buf_le : s.buf.length ≤ maxRequestBytes
  waiting : s.outcome = none → parseRequestIfComplete s.buf = .ok none
  ending : ∀ outcome, s.outcome = some outcome → outcome = requestOutcome stream

namespace RequestRead.Reads

variable {stream : List UInt8} {s : RequestRead}

theorem start (stream : List UInt8) : Reads stream { input := stream } where
  stream_eq := rfl
  buf_le := Nat.zero_le _
  waiting := fun _ => parse_nil
  ending := fun _ h => nomatch h

theorem step_end (h : Reads stream s) (hg : s.outcome = none) (hi : s.input = [])
    (count : ℕ) : Reads stream (s.step count).2 ∧ (s.step count).2.outcome ≠ none := by
  have hbuf : s.buf = stream := by
    rw [← h.stream_eq, hi, append_nil]
  have hoff : ¬ s.outcome.isSome = true := by simp [hg]
  have hs : (s.step count).2 = { s with outcome := some (requestOutcome stream) } := by
    have hall : stream.take maxRequestBytes = stream := take_of_length_le (hbuf ▸ h.buf_le)
    have hp := h.waiting hg
    unfold step requestOutcome
    rw [hbuf] at hp
    simp [if_neg hoff, hi, hall, hp, hbuf]
  rw [hs]
  refine ⟨⟨h.stream_eq, h.buf_le, fun hn => (nomatch hn), ?_⟩, by simp⟩
  intro outcome ho
  exact (Option.some.inj ho).symm

/-- A read before the end takes at least one byte, and a verdict is the one on
the stream. -/
theorem step_more (h : Reads stream s) (hg : s.outcome = none) (hi : s.input ≠ []) (count : ℕ) :
    Reads stream (s.step count).2 ∧ (s.step count).2.input.length < s.input.length := by
  have hr := parse_isFinal.length_lt h.buf_le (h.waiting hg)
  have hpos : 0 < s.input.length := length_pos_iff.mpr hi
  set n := min s.available (count + 1) with hn
  have ha : s.available = min chunkBytes (maxRequestBytes - s.buf.length) := rfl
  have hcb : chunkBytes = 1024 := rfl
  have hc : ¬ (s.input.take n).length = 0 := by
    rw [length_take]
    omega
  have hbuf_le : (s.buf ++ s.input.take n).length ≤ maxRequestBytes := by
    rw [length_append, length_take]
    omega
  have hs : s.buf ++ s.input.take n ++ s.input.drop n = stream := by
    rw [append_assoc, take_append_drop, h.stream_eq]
  have hl : (s.input.drop n).length < s.input.length := by
    rw [length_drop]
    omega
  have hoff : ¬ s.outcome.isSome = true := by simp [hg]
  unfold step
  simp only [if_neg hoff, ← hn, if_neg hc]
  have ho := requestOutcome_of_verdict hbuf_le (q := s.input.drop n)
  rw [hs] at ho
  rcases hp : parseRequestIfComplete (s.buf ++ s.input.take n) with e | _ | request
  · refine ⟨⟨hs, hbuf_le, fun hno => (nomatch hno), fun outcome he => ?_⟩, hl⟩
    rw [ho (by simp [hp]), hp]
    exact (Option.some.inj he).symm
  · refine ⟨⟨hs, hbuf_le, fun _ => hp, fun outcome he => ?_⟩, hl⟩
    exact absurd he (by simp [hg])
  · refine ⟨⟨hs, hbuf_le, fun hno => (nomatch hno), fun outcome he => ?_⟩, hl⟩
    rw [ho (by simp [hp]), hp]
    exact (Option.some.inj he).symm

/-- Every round keeps the invariant, and one that does not end the reading
takes a byte. -/
theorem step (h : Reads stream s) (count : ℕ) :
    Reads stream (s.step count).2 ∧
      ((s.step count).2.outcome = none →
        s.outcome = none ∧ 1 + (s.step count).2.input.length ≤ s.input.length) := by
  by_cases hg : s.outcome = none
  · by_cases hi : s.input = []
    · obtain ⟨hr, he⟩ := h.step_end hg hi count
      exact ⟨hr, fun hn => absurd hn he⟩
    · obtain ⟨hr, hl⟩ := h.step_more hg hi count
      exact ⟨hr, fun _ => ⟨hg, by omega⟩⟩
  · have he : s.outcome.isSome = true := Option.isSome_iff_ne_none.mpr hg
    have hs : (s.step count).2 = s := by
      unfold RequestRead.step
      rw [if_pos he]
    rw [hs]
    exact ⟨h, fun hn => absurd hn hg⟩

end RequestRead.Reads

theorem requestRead_run (stream : List UInt8) (cuts : List ℕ) :
    (RequestRead.reads stream cuts).Reads stream ∧
    ((RequestRead.reads stream cuts).outcome = none →
      cuts.length + (RequestRead.reads stream cuts).input.length ≤ stream.length) := by
  obtain ⟨hr, hc⟩ := Machine.run_progress RequestRead.step
    (fun s => s.outcome = none) (fun _ => true) (fun s => s.input.length)
    (fun s count h => h.step count) { input := stream } cuts (RequestRead.Reads.start stream)
  refine ⟨hr, fun hg => ?_⟩
  have hle := (hc hg).2
  rwa [countP_true] at hle

/-- **Only the stream decides.** For every stream and all ways to cut it: a
reading that has ended has told the caller what the stream says, more reads
than the stream has bytes end it, and at most `MAX_REQUEST_BYTES` are ever
buffered. A request that was accepted is accepted with the same method, path
and body whatever follows it, and a stream whose beginning the parser rejects
is rejected in the same way. -/
theorem request_outcome_of_stream (stream : List UInt8) :
    (∀ (cuts : List ℕ),
      let s := RequestRead.reads stream cuts
      (∀ outcome, s.outcome = some outcome → outcome = requestOutcome stream) ∧
      (stream.length < cuts.length → s.outcome ≠ none) ∧
      s.buf.length ≤ maxRequestBytes) ∧
    (∀ (request : Request) (later : List UInt8), requestOutcome stream = .ok (some request) →
      requestOutcome (stream ++ later) = .ok (some request)) ∧
    (∀ (e : RequestError) (later : List UInt8),
      parseRequestIfComplete (stream.take maxRequestBytes) = .error e →
      requestOutcome (stream ++ later) = .error e.response) := by
  refine ⟨fun cuts => ?_, fun request later ha => ?_, fun e later hre => ?_⟩
  · obtain ⟨hr, hc⟩ := requestRead_run stream cuts
    refine ⟨hr.ending, fun hlt hg => ?_, hr.buf_le⟩
    have := hc hg
    omega
  · have hp : parseRequestIfComplete (stream.take maxRequestBytes) = .ok (some request) := by
      unfold requestOutcome at ha
      rcases hp : parseRequestIfComplete (stream.take maxRequestBytes) with e | _ | r
      · simp [hp] at ha
      · simp only [hp] at ha
        split at ha <;> simp at ha
      · simpa [hp] using ha
    have hl := parse_isFinal.take_append (p := stream) (by simp [hp]) later
    simp [requestOutcome, hl, hp]
  · have hl := parse_isFinal.take_append (p := stream) (by simp [hre]) later
    simp [requestOutcome, hl, hre]

example : requestOutcome (ascii "PUT /s HTTP/1.1\r\nContent-Length:  2\r\n\r\nok!") =
    .ok (some ⟨"PUT", "/s", [111, 107]⟩) := by decide +kernel

end Ptpsim.Service
