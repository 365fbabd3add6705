/-
# Collecting a data phase from the host

`collect_data_in` reads the frames of a data phase that follows a command:
StartData, data blocks and EndData in the standard framing, one data container
in the others. The payload may have one mebibyte, and every frame has to name
the transaction of the command.

What an encoder writes for a payload within that bound is collected as this
payload, however the bytes come in and whatever follows them
(`collected_of_sent`).
-/
import Ptpsim.Service.Inbound
import Ptpsim.Service.WireFrames

namespace Ptpsim.Service

open Ptpsim.Core Primitives LengthPrefixed List
open Sim (WireFraming)

def dataBytes : ℕ := 1024 * 1024
def dataFrameBytes : ℕ := dataBytes + 12

/-- `MAX_DATA_IN_BYTES` -/
def maxDataInBytes : ℕ := dataBytes

inductive DataInError where
  | read (e : FrameError)
  | decode (e : DecodeError)
  | invalid (message : String)
deriving DecidableEq

def ptpipPacketKind : PtpIpPacket → String
  | .initCommandRequest _ => "InitCommandRequest"
  | .initCommandAck _ => "InitCommandAck"
  | .initEventRequest _ => "InitEventRequest"
  | .initEventAck _ => "InitEventAck"
  | .initFail _ => "InitFail"
  | .operationRequest _ => "OperationRequest"
  | .operationResponse _ => "OperationResponse"
  | .event _ => "Event"
  | .startData _ => "StartData"
  | .data _ => "Data"
  | .endData _ => "EndData"
  | .probeRequest _ => "ProbeRequest"
  | .probeResponse _ => "ProbeResponse"

/-- What a read gives where there are no more frames. -/
def noFrame (ended : Except FrameError Unit) (message : String) : DataInError :=
  match ended with
  | .error e => .read e
  | .ok () => .invalid message

/-- The loop over the blocks of a standard data phase. -/
def collectBlocks (tid : UInt32) (total : UInt64) (ended : Except FrameError Unit)
    (payload : List UInt8) : List (List UInt8) → Except DataInError (List UInt8)
  | [] => .error (noFrame ended "data-in: stream closed before EndData")
  | frame :: frames =>
    match decodeCommandFrame .standard frame with
    | .error e => .error (.decode e)
    | .ok packet =>
      let block := match packet with
        | .data data => some (data, false)
        | .endData data => some (data, true)
        | _ => none
      match block with
      | none =>
        let kind := ptpipPacketKind packet
        .error (.invalid s!"data-in: expected Data or EndData, got {kind}")
      | some (data, last) =>
        let got := data.transactionId
        if got ≠ tid then .error (.invalid s!"data-in: data tid {got} != request tid {tid}")
        else
          let nextLen := payload.length + data.payload.length
          if total.toNat < nextLen ∨ maxDataInBytes < nextLen then
            .error (.invalid "data-in: payload exceeds declared length")
          else
            let payload := payload ++ data.payload
            let received := payload.length
            if last then
              if received ≠ total.toNat then
                .error (.invalid s!"data-in: received {received} bytes, declared {total}")
              else .ok payload
            else collectBlocks tid total ended payload frames

/-- The data phase that comes in as `frames`; then the reading ends. -/
def collectDataIn (framing : WireFraming) (tid : UInt32) (frames : List (List UInt8))
    (ended : Except FrameError Unit) : Except DataInError (List UInt8) :=
  match frames with
  | [] => .error (noFrame ended "data-in: stream closed before the data frame")
  | first :: frames =>
    match decodeCommandFrame framing first with
    | .error e => .error (.decode e)
    | .ok packet =>
      let kind := ptpipPacketKind packet
      if framing = .standard then
        match packet with
        | .startData start =>
          let got := start.transactionId
          let declared := start.totalLength
          if got ≠ tid then .error (.invalid s!"data-in: StartData tid {got} != request tid {tid}")
          else if maxDataInBytes < declared.toNat then
            .error (.invalid s!"data-in: declared payload {declared} exceeds cap {maxDataInBytes}")
          else collectBlocks tid declared ended [] frames
        | _ => .error (.invalid s!"data-in: expected StartData, got {kind}")
      else
        match packet with
        | .data data =>
          let got := data.transactionId
          let length := data.payload.length
          if got ≠ tid then .error (.invalid s!"data-in: Data tid {got} != request tid {tid}")
          else if maxDataInBytes < length then
            .error (.invalid s!"data-in: payload {length} exceeds cap {maxDataInBytes}")
          else .ok data.payload
        | _ => .error (.invalid s!"data-in: expected a data frame, got {kind}")

/-! ### What was sent is collected -/

variable {sent : List (List UInt8)} {framing : WireFraming} {payload : List UInt8} {tid : UInt32}

/-- The frames of a data phase within the bound give its payload, whatever
comes after them. -/
theorem collectDataIn_sent (hs : payload.length ≤ maxDataInBytes)
    (hse : CarryPackets framing sent (dataPhase framing tid payload)) (later : List (List UInt8))
    (ended : Except FrameError Unit) :
    collectDataIn framing tid (sent ++ later) ended = .ok payload := by
  have hlen : (UInt64.ofNat payload.length).toNat = payload.length := by
    have hcap : maxDataInBytes < 2 ^ 64 := by decide
    rw [UInt64.toNat_ofNat', Nat.mod_eq_of_lt (by omega)]
  have hs' : ¬ maxDataInBytes < payload.length := Nat.not_lt.mpr hs
  match framing with
  | .standard =>
    obtain ⟨start, rest, rfl, hst, hr⟩ := map_eq_cons_iff.mp hse
    obtain ⟨last, rest', rfl, hl, hnil⟩ := map_eq_cons_iff.mp hr
    simp only [collectDataIn, cons_append, hst, if_true, ne_eq, not_true_eq_false, if_false,
      hlen, hs', collectBlocks, hl, length_nil, Nat.zero_add, Nat.lt_irrefl, or_self,
      nil_append]
  | .compressed | .usb =>
    obtain ⟨frame, rest, rfl, hd, hnil⟩ := map_eq_cons_iff.mp hse
    simp [collectDataIn, hd, hs']

theorem isFrame_of_sent (hsi : payload.length ≤ maxDataInBytes)
    (hs : CarryPackets framing sent (dataPhase framing tid payload)) :
    ∀ frame ∈ sent, IsFrame dataFrameBytes frame := by
  have hcap : dataFrameBytes = maxDataInBytes + 12 := rfl
  have hli : 20 ≤ dataFrameBytes := by decide
  have hw : ∀ frame p, decodeCommandFrame framing frame = .ok p →
      frame.length ≤ dataFrameBytes → IsFrame dataFrameBytes frame := by
    intro frame p hp hle
    have hf := isFrame_of_decode hp
    exact ⟨⟨hf.fits.1, by rw [← hf.length_eq]; exact hle⟩, hf.length_eq⟩
  match framing with
  | .standard =>
    obtain ⟨start, rest, rfl, hst, hr⟩ := map_eq_cons_iff.mp hs
    obtain ⟨last, rest', rfl, hl, hnil⟩ := map_eq_cons_iff.mp hr
    obtain rfl := map_eq_nil_iff.mp hnil
    have hlen : last.length = 12 + payload.length := endData_length hl
    have hlen' : start.length = 20 := startData_length hst
    intro frame hmem
    rcases mem_pair.mp hmem with rfl | rfl
    · exact hw _ _ hst (by omega)
    · exact hw _ _ hl (by omega)
  | .compressed | .usb =>
    obtain ⟨frame, rest, rfl, hd, hnil⟩ := map_eq_cons_iff.mp hs
    obtain rfl := map_eq_nil_iff.mp hnil
    have hlen : frame.length = 12 + payload.length := container_data_length (by simp) hd
    intro frame' hmem
    rw [mem_singleton.mp hmem]
    exact hw _ _ hd (by omega)

/-- **What was sent is collected.** However the bytes of a data phase within
the bound are cut into reads, and whatever follows them: as soon as its frames
have been read they are collected as its payload, and more reads than there
are bytes have read them. -/
theorem collected_of_sent (hsi : payload.length ≤ maxDataInBytes)
    (hs : CarryPackets framing sent (dataPhase framing tid payload)) (later : List UInt8)
    (events : List ReadEvent) (ended : Except FrameError Unit) :
    let s := Session.reads dataFrameBytes (sent.flatten ++ later) events
    (sent.length ≤ s.frames.length → collectDataIn framing tid s.frames ended = .ok payload) ∧
    ((sent.flatten ++ later).length < readCount events → sent.length ≤ s.frames.length) := by
  intro s
  obtain ⟨hr, hc⟩ := reads_run dataFrameBytes (sent.flatten ++ later) events
  have hcut := split_eq_of_frames sent later (isFrame_of_sent hsi hs)
  refine ⟨fun hre => ?_, fun hlt => ?_⟩
  · -- what has been read and what was sent both begin the cut of the stream
    have hsp := hr.split_eq
    rw [hcut] at hsp
    have hi : sent <+: s.frames :=
      prefix_of_prefix_length_le (prefix_append sent _) ⟨_, (congrArg Prod.fst hsp).symm⟩ hre
    obtain ⟨more, hm⟩ := hi
    rw [← hm]
    exact collectDataIn_sent hsi hs more ended
  · rcases he : s.ended with _ | result
    · have := hc he
      omega
    · have hf := (hr.ended he).1
      rw [hcut] at hf
      have hl := congrArg List.length hf
      rw [length_append] at hl
      change _ = s.frames.length at hl
      omega

end Ptpsim.Service
