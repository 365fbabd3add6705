/-
# The four-record LSS authentication exchange

The initiator (`NikonLssClient`) and the responder (`NikonLssServer`) are two
small state machines over the records of `NikonLss`. Every call returns its
answer and the object it leaves behind; an early return leaves the object as
it was.

An honest exchange succeeds on both sides (`honest_exchange`): the client finds
the responder's row because the proofs of different rows differ. And a responder
that is called with arbitrary bytes gives out at most one session
(`responder_session_unique`), by one inversion lemma per call and the record of
what it has accepted so far (`Granted`).
-/
import Mathlib.Data.List.Induction
import Ptpsim.Lib.Machine
import Ptpsim.Primitives.NikonLss

namespace Ptpsim.Primitives

open Machine

variable (cipher : BlockCipher)

/-! ### The initiator -/

inductive ClientState where
  | ready
  | awaitingStage2
  | awaitingStage4
deriving DecidableEq, Repr

def clientStateName : ClientState → String
  | .ready => "ready"
  | .awaitingStage2 => "awaiting-stage-2"
  | .awaitingStage4 => "awaiting-stage-4"

/-- The client's side of the exchange. -/
structure NikonLssClient where
  state : ClientState
  clientDeviceId : Block
  clientNonce : Block
  cameraNonce : Block
  selection : Option AuthenticationSelection
deriving DecidableEq, Repr

namespace NikonLssClient

def new (clientDeviceId clientNonce : Block) : NikonLssClient :=
  ⟨.ready, clientDeviceId, clientNonce, Block.zero, none⟩

variable (client : NikonLssClient)

def stage1Record : Except NikonLssError (List UInt8) × NikonLssClient :=
  if client.state ≠ .ready then (.error (.invalidState (clientStateName client.state)), client)
  else
    (.ok (packRecord 1 client.clientNonce client.clientDeviceId),
      { client with state := .awaitingStage2 })

/-- The first row whose proof over the two nonces is the camera's. -/
def findSelection (cameraNonce cameraProof : Block) : Option AuthenticationSelection :=
  AuthenticationSelection.all.find? fun selection =>
    authenticationProof cipher selection cameraNonce client.clientNonce = cameraProof

def handleStage2 (record : List UInt8) : Except NikonLssError (List UInt8) × NikonLssClient :=
  if client.state ≠ .awaitingStage2 then
    (.error (.invalidState (clientStateName client.state)), client)
  else
    match unpackRecord record 2 with
    | .error e => (.error e, client)
    | .ok (_, cameraNonce, cameraProof) =>
      match client.findSelection cipher cameraNonce cameraProof with
      | none => (.error .authenticationFailed, client)
      | some selection =>
        let clientProof := authenticationProof cipher selection client.clientNonce cameraNonce
        (.ok (packRecord 3 client.clientNonce clientProof),
          { client with
            cameraNonce := cameraNonce, selection := some selection, state := .awaitingStage4 })

/-- Consumes the client. -/
def finishStage4 (record : List UInt8) : Except NikonLssError (NikonLssSession cipher) :=
  if client.state ≠ .awaitingStage4 then .error (.invalidState (clientStateName client.state))
  else
    match unpackRecord record 4 with
    | .error e => .error e
    | .ok (_, _, serverDeviceId) =>
      match client.selection with
      | none => .error (.invalidState (clientStateName client.state))
      | some selection =>
        .ok (deriveSession cipher selection client.clientNonce client.cameraNonce
          client.clientDeviceId serverDeviceId)

end NikonLssClient

/-! ### The responder -/

inductive ServerState where
  | awaitingStage1
  | awaitingStage3
  | complete
deriving DecidableEq, Repr

def serverStateName : ServerState → String
  | .awaitingStage1 => "awaiting-stage-1"
  | .awaitingStage3 => "awaiting-stage-3"
  | .complete => "complete"

/-- The server's side of the exchange. -/
structure NikonLssServer where
  state : ServerState
  selection : AuthenticationSelection
  cameraNonce : Block
  serverDeviceId : Block
  clientNonce : Block
  clientDeviceId : Block
deriving DecidableEq, Repr

namespace NikonLssServer

def new (selection : AuthenticationSelection) (cameraNonce serverDeviceId : Block) :
    NikonLssServer :=
  ⟨.awaitingStage1, selection, cameraNonce, serverDeviceId, Block.zero, Block.zero⟩

variable (server : NikonLssServer)

def handleStage1 (record : List UInt8) : Except NikonLssError (List UInt8) × NikonLssServer :=
  if server.state ≠ .awaitingStage1 then
    (.error (.invalidState (serverStateName server.state)), server)
  else
    match unpackRecord record 1 with
    | .error e => (.error e, server)
    | .ok (_, clientNonce, clientDeviceId) =>
      let cameraProof :=
        authenticationProof cipher server.selection server.cameraNonce clientNonce
      (.ok (packRecord 2 server.cameraNonce cameraProof),
        { server with
          clientNonce := clientNonce, clientDeviceId := clientDeviceId, state := .awaitingStage3 })

/-- The session of the exchange the server has taken part in. -/
def session : NikonLssSession cipher :=
  deriveSession cipher server.selection server.clientNonce server.cameraNonce
    server.clientDeviceId server.serverDeviceId

/-- A proof mismatch leaves the responder in the stage-3 state. -/
def finishStage3 (record : List UInt8) :
    Except NikonLssError (List UInt8 × NikonLssSession cipher) × NikonLssServer :=
  if server.state ≠ .awaitingStage3 then
    (.error (.invalidState (serverStateName server.state)), server)
  else
    match unpackRecord record 3 with
    | .error e => (.error e, server)
    | .ok (_, echoedClientNonce, clientProof) =>
      let expected :=
        authenticationProof cipher server.selection server.clientNonce server.cameraNonce
      if echoedClientNonce ≠ server.clientNonce ∨ clientProof ≠ expected then
        (.error .authenticationFailed, server)
      else
        (.ok (packRecord 4 server.cameraNonce server.serverDeviceId, server.session cipher),
          { server with state := .complete })

end NikonLssServer

/-! ### An honest exchange -/

/-- Both sides with every record delivered as it was sent: the selection the
client ends with, and the two sessions. -/
def exchange (client : NikonLssClient) (server : NikonLssServer) : Except NikonLssError
    (Option AuthenticationSelection × NikonLssSession cipher × NikonLssSession cipher) := do
  let (stage1, client) := client.stage1Record
  let (stage2, server) := server.handleStage1 cipher (← stage1)
  let (stage3, client) := client.handleStage2 cipher (← stage2)
  let (finished, _) := server.finishStage3 cipher (← stage3)
  let (stage4, serverSession) ← finished
  let clientSession ← client.finishStage4 cipher stage4
  pure (client.selection, clientSession, serverSession)

variable {cipher}

/-- The client finds the row the proof was made with: it is among the rows,
and no row before it has the same proof. -/
theorem NikonLssClient.findSelection_eq
    (hc : Function.Injective (cipher.encryptBlock authenticationKey))
    (client : NikonLssClient) (cameraNonce : Block) (selection : AuthenticationSelection) :
    client.findSelection cipher cameraNonce
      (authenticationProof cipher selection cameraNonce client.clientNonce) = some selection := by
  have hf : ∃ found, client.findSelection cipher cameraNonce
      (authenticationProof cipher selection cameraNonce client.clientNonce) = some found := by
    unfold findSelection
    rw [← Option.isSome_iff_exists, List.find?_isSome]
    exact ⟨selection, selection.mem_all, by simp⟩
  obtain ⟨found, hf⟩ := hf
  have hs := List.find?_some hf
  rw [decide_eq_true_eq] at hs
  have heq : found = selection := authenticationProof_injective hc cameraNonce client.clientNonce hs
  rw [hf, heq]

/-! Each call on the record that the other side sends. -/

theorem NikonLssServer.handleStage1_packed (server : NikonLssServer)
    (h : server.state = .awaitingStage1) (nonce deviceId : Block) :
    server.handleStage1 cipher (packRecord 1 nonce deviceId) =
      (.ok (packRecord 2 server.cameraNonce
          (authenticationProof cipher server.selection server.cameraNonce nonce)),
        { server with
          clientNonce := nonce, clientDeviceId := deviceId, state := .awaitingStage3 }) := by
  unfold handleStage1
  rw [if_neg (not_not.mpr h), unpackRecord_packRecord]

theorem NikonLssServer.finishStage3_packed (server : NikonLssServer)
    (h : server.state = .awaitingStage3) :
    server.finishStage3 cipher (packRecord 3 server.clientNonce
        (authenticationProof cipher server.selection server.clientNonce server.cameraNonce)) =
      (.ok (packRecord 4 server.cameraNonce server.serverDeviceId, server.session cipher),
        { server with state := .complete }) := by
  unfold finishStage3
  rw [if_neg (not_not.mpr h), unpackRecord_packRecord]
  simp

theorem NikonLssClient.handleStage2_packed
    (hc : Function.Injective (cipher.encryptBlock authenticationKey))
    (client : NikonLssClient) (h : client.state = .awaitingStage2)
    (selection : AuthenticationSelection) (cameraNonce : Block) :
    client.handleStage2 cipher (packRecord 2 cameraNonce
        (authenticationProof cipher selection cameraNonce client.clientNonce)) =
      (.ok (packRecord 3 client.clientNonce
          (authenticationProof cipher selection client.clientNonce cameraNonce)),
        { client with
          cameraNonce := cameraNonce, selection := some selection, state := .awaitingStage4 }) := by
  unfold handleStage2
  rw [if_neg (not_not.mpr h), unpackRecord_packRecord]
  simp only [client.findSelection_eq hc]

/-- **An honest exchange succeeds.** For all ids, nonces and selections both
sides finish, the client has recovered the responder's selection, and the two
sessions encrypt every aligned message to the same bytes. -/
theorem honest_exchange (hcipher : Function.Bijective (cipher.encryptBlock authenticationKey))
    (selection : AuthenticationSelection)
    (clientDeviceId clientNonce cameraNonce serverDeviceId : Block) :
    ∃ clientSession serverSession,
      exchange cipher (NikonLssClient.new clientDeviceId clientNonce)
        (NikonLssServer.new selection cameraNonce serverDeviceId) =
          .ok (some selection, clientSession, serverSession) ∧
      ∀ message : List UInt8, message.length % 8 = 0 →
        ∃ ciphertext, clientSession.encrypt message = .ok ciphertext ∧
          serverSession.encrypt message = .ok ciphertext := by
  refine ⟨deriveSession cipher selection clientNonce cameraNonce clientDeviceId serverDeviceId,
    deriveSession cipher selection clientNonce cameraNonce clientDeviceId serverDeviceId, ?_,
    fun message h => ⟨_, NikonLssSession.encrypt_aligned _ h, NikonLssSession.encrypt_aligned _ h⟩⟩
  -- the two objects after their first calls
  let client : NikonLssClient := ⟨.awaitingStage2, clientDeviceId, clientNonce, Block.zero, none⟩
  let server : NikonLssServer :=
    ⟨.awaitingStage3, selection, cameraNonce, serverDeviceId, clientNonce, clientDeviceId⟩
  have hstage1 : (NikonLssClient.new clientDeviceId clientNonce).stage1Record =
      (.ok (packRecord 1 clientNonce clientDeviceId), client) := rfl
  have hstage2 : (NikonLssServer.new selection cameraNonce serverDeviceId).handleStage1 cipher
      (packRecord 1 clientNonce clientDeviceId) = (.ok (packRecord 2 cameraNonce
        (authenticationProof cipher selection cameraNonce clientNonce)), server) :=
    NikonLssServer.handleStage1_packed _ rfl clientNonce clientDeviceId
  have hstage3 : client.handleStage2 cipher (packRecord 2 cameraNonce
      (authenticationProof cipher selection cameraNonce clientNonce)) =
        (.ok (packRecord 3 clientNonce
          (authenticationProof cipher selection clientNonce cameraNonce)),
            ⟨.awaitingStage4, clientDeviceId, clientNonce, cameraNonce, some selection⟩) :=
    client.handleStage2_packed hcipher.injective rfl selection cameraNonce
  have hstage4 : server.finishStage3 cipher (packRecord 3 clientNonce
      (authenticationProof cipher selection clientNonce cameraNonce)) =
        (.ok (packRecord 4 cameraNonce serverDeviceId, server.session cipher),
          { server with state := .complete }) := server.finishStage3_packed rfl
  simp only [exchange, hstage1, hstage2, hstage3, hstage4, bind, Except.bind,
    NikonLssClient.finishStage4, unpackRecord_packRecord]
  rfl

/-- The sampled exchange, with its second row. -/
theorem honest_exchange_sample :
    ∃ clientSession serverSession,
      exchange sampleCipher (NikonLssClient.new sampleClientDeviceId sampleClientNonce)
        (NikonLssServer.new sampleSelection sampleCameraNonce sampleServerDeviceId) =
          .ok (some sampleSelection, clientSession, serverSession) ∧
      ∃ ciphertext, clientSession.encrypt sampleMessage = .ok ciphertext ∧
        serverSession.encrypt sampleMessage = .ok ciphertext := by
  have hp : Function.Bijective (sampleCipher.encryptBlock authenticationKey) :=
    (samplePerm authenticationKey).bijective
  obtain ⟨clientSession, serverSession, hex, he⟩ :=
    honest_exchange hp sampleSelection sampleClientDeviceId sampleClientNonce sampleCameraNonce
      sampleServerDeviceId
  exact ⟨clientSession, serverSession, hex, he sampleMessage (by decide)⟩

/-! ### The responder under arbitrary calls -/

inductive ServerCall where
  | handleStage1 (record : List UInt8)
  | finishStage3 (record : List UInt8)
deriving DecidableEq, Repr

/-- What a call returns. -/
inductive ServerReply (cipher : BlockCipher) where
  | rejected (e : NikonLssError)
  | stage2 (record : List UInt8)
  | established (stage4 : List UInt8) (session : NikonLssSession cipher)

namespace ServerReply

def isAccepted : ServerReply cipher → Bool
  | rejected _ => false
  | _ => true

def isSession : ServerReply cipher → Bool
  | established _ _ => true
  | _ => false

end ServerReply

namespace NikonLssServer

variable (cipher) in
def step (server : NikonLssServer) : ServerCall → ServerReply cipher × NikonLssServer
  | .handleStage1 record =>
    match server.handleStage1 cipher record with
    | (.ok stage2, server') => (.stage2 stage2, server')
    | (.error e, server') => (.rejected e, server')
  | .finishStage3 record =>
    match server.finishStage3 cipher record with
    | (.ok (stage4, session), server') => (.established stage4 session, server')
    | (.error e, server') => (.rejected e, server')

/-- A stage-1 call either is rejected without a trace or stores the parts of
the record it was given. -/
theorem handleStage1_cases (cipher : BlockCipher) (server : NikonLssServer) (record : List UInt8) :
    (∃ e, server.handleStage1 cipher record = (.error e, server)) ∨
    ∃ nonce deviceId stage2, server.state = .awaitingStage1 ∧
      record = packRecord 1 nonce deviceId ∧
      server.handleStage1 cipher record = (.ok stage2,
        { server with
          clientNonce := nonce, clientDeviceId := deviceId, state := .awaitingStage3 }) := by
  by_cases hs : server.state = .awaitingStage1
  · cases hr : unpackRecord record 1 with
    | error e =>
      left
      refine ⟨e, ?_⟩
      unfold handleStage1
      rw [if_neg (not_not.mpr hs), hr]
    | ok parts =>
      obtain ⟨stage, nonce, deviceId⟩ := parts
      obtain ⟨-, rfl⟩ := unpackRecord_ok_iff.mp hr
      right
      exact ⟨nonce, deviceId, _, hs, rfl, server.handleStage1_packed hs nonce deviceId⟩
  · left
    refine ⟨.invalidState (serverStateName server.state), ?_⟩
    unfold handleStage1
    rw [if_pos hs]

variable (cipher) in
/-- The one stage-3 record a responder accepts. -/
def expectedStage3 (selection : AuthenticationSelection) (clientNonce cameraNonce : Block) :
    List UInt8 :=
  packRecord 3 clientNonce (authenticationProof cipher selection clientNonce cameraNonce)

/-- A stage-3 call either is rejected without a trace or was given the
expected record. -/
theorem finishStage3_cases (cipher : BlockCipher) (server : NikonLssServer) (record : List UInt8) :
    (∃ e, server.finishStage3 cipher record = (.error e, server)) ∨
    server.state = .awaitingStage3 ∧
      record = expectedStage3 cipher server.selection server.clientNonce server.cameraNonce ∧
      server.finishStage3 cipher record =
        (.ok (packRecord 4 server.cameraNonce server.serverDeviceId, server.session cipher),
          { server with state := .complete }) := by
  by_cases hs : server.state = .awaitingStage3
  · cases hr : unpackRecord record 3 with
    | error e =>
      left
      refine ⟨e, ?_⟩
      unfold finishStage3
      rw [if_neg (not_not.mpr hs), hr]
    | ok parts =>
      obtain ⟨stage, nonce, proof⟩ := parts
      obtain ⟨-, rfl⟩ := unpackRecord_ok_iff.mp hr
      by_cases hw : nonce ≠ server.clientNonce ∨ proof ≠
          authenticationProof cipher server.selection server.clientNonce server.cameraNonce
      · left
        refine ⟨.authenticationFailed, ?_⟩
        unfold finishStage3
        rw [if_neg (not_not.mpr hs), hr]
        exact if_pos hw
      · right
        obtain ⟨hn, hp⟩ := not_or.mp hw
        rw [not_not.mp hn, not_not.mp hp]
        exact ⟨hs, rfl, server.finishStage3_packed hs⟩
  · left
    refine ⟨.invalidState (serverStateName server.state), ?_⟩
    unfold finishStage3
    rw [if_pos hs]

theorem step_cases (cipher : BlockCipher) (server : NikonLssServer) (call : ServerCall) :
    (∃ e, server.step cipher call = (.rejected e, server)) ∨
    (∃ nonce deviceId stage2, server.state = .awaitingStage1 ∧
      call = .handleStage1 (packRecord 1 nonce deviceId) ∧
      server.step cipher call = (.stage2 stage2,
        { server with
          clientNonce := nonce, clientDeviceId := deviceId, state := .awaitingStage3 })) ∨
    server.state = .awaitingStage3 ∧
      call = .finishStage3
        (expectedStage3 cipher server.selection server.clientNonce server.cameraNonce) ∧
      server.step cipher call = (.established
          (packRecord 4 server.cameraNonce server.serverDeviceId) (server.session cipher),
        { server with state := .complete }) := by
  cases call with
  | handleStage1 record =>
    rcases handleStage1_cases cipher server record with ⟨e, h⟩ |
      ⟨nonce, deviceId, stage2, hs, rfl, h⟩
    · exact .inl ⟨e, by simp only [step, h]⟩
    · exact .inr (.inl ⟨nonce, deviceId, stage2, hs, rfl, by simp only [step, h]⟩)
  | finishStage3 record =>
    rcases finishStage3_cases cipher server record with ⟨e, h⟩ | ⟨hs, rfl, h⟩
    · exact .inl ⟨e, by simp only [step, h]⟩
    · exact .inr (.inr ⟨hs, rfl, by simp only [step, h]⟩)

/-! What a responder has accepted is determined by its state. -/

/-- The calls a responder in this state has accepted, in order. -/
def acceptedCalls (cipher : BlockCipher) (server : NikonLssServer) : List ServerCall :=
  match server.state with
  | .awaitingStage1 => []
  | .awaitingStage3 => [.handleStage1 (packRecord 1 server.clientNonce server.clientDeviceId)]
  | .complete => [.handleStage1 (packRecord 1 server.clientNonce server.clientDeviceId),
      .finishStage3 (expectedStage3 cipher server.selection server.clientNonce server.cameraNonce)]

/-- The sessions a responder in this state has given out. -/
def sessionsGiven (server : NikonLssServer) : ℕ := if server.state = .complete then 1 else 0

/-- The responder's state against the history of its calls. -/
structure Granted (cipher : BlockCipher) (selection : AuthenticationSelection) (cameraNonce : Block)
    (server : NikonLssServer) (accepted : List ServerCall) (replies : List (ServerReply cipher)) :
    Prop where
  selection_eq : server.selection = selection
  cameraNonce_eq : server.cameraNonce = cameraNonce
  accepted_eq : accepted = server.acceptedCalls cipher
  sessions_eq : replies.countP ServerReply.isSession = server.sessionsGiven

theorem Granted.step {selection : AuthenticationSelection} {cameraNonce : Block}
    {server : NikonLssServer} {accepted : List ServerCall} {replies : List (ServerReply cipher)}
    (h : Granted cipher selection cameraNonce server accepted replies) (call : ServerCall) :
    Granted cipher selection cameraNonce (server.step cipher call).2
      (accepted ++ if (server.step cipher call).1.isAccepted then [call] else [])
      (replies ++ [(server.step cipher call).1]) := by
  obtain ⟨hse, hn, ha, hses⟩ := h
  rcases step_cases cipher server call with ⟨e, hst⟩ |
    ⟨nonce, deviceId, stage2, hs, rfl, hst⟩ | ⟨hs, rfl, hst⟩
  · rw [hst]
    refine ⟨hse, hn, ?_, ?_⟩
    · simpa [ServerReply.isAccepted] using ha
    · simpa [ServerReply.isSession] using hses
  · rw [hst]
    refine ⟨hse, hn, ?_, ?_⟩
    · simp [ha, acceptedCalls, hs, ServerReply.isAccepted]
    · simp [hses, sessionsGiven, hs, ServerReply.isSession]
  · rw [hst]
    refine ⟨hse, hn, ?_, ?_⟩
    · simp [ha, acceptedCalls, hs, ServerReply.isAccepted]
    · simp [hses, sessionsGiven, hs, ServerReply.isSession]

/-- The account holds after every sequence of calls. -/
theorem granted_run (cipher : BlockCipher) (selection : AuthenticationSelection)
    (cameraNonce serverDeviceId : Block) (calls : List ServerCall) :
    Granted cipher selection cameraNonce
      (Machine.run (step cipher) (new selection cameraNonce serverDeviceId) calls)
      (accepted (step cipher) ServerReply.isAccepted
        (new selection cameraNonce serverDeviceId) calls)
      (outputs (step cipher) (new selection cameraNonce serverDeviceId) calls) := by
  induction calls using List.reverseRecOn with
  | nil => exact ⟨rfl, rfl, rfl, rfl⟩
  | append_singleton calls call ih =>
    have hs := ih.step call
    rw [run_append, accepted_append, outputs_append]
    exact hs

end NikonLssServer

open NikonLssServer in
/-- **A responder under arbitrary calls.** Whatever bytes it is called with:
a session comes only from the stage-3 record that its selection and the nonces
of the one stage-1 record it has accepted determine; there is at most one; and
a rejected call leaves the object as it was. -/
theorem responder_session_unique (cipher : BlockCipher) (selection : AuthenticationSelection)
    (cameraNonce serverDeviceId : Block) (calls : List ServerCall) :
    (∀ call stage4 session,
      ((Machine.run (step cipher) (new selection cameraNonce serverDeviceId) calls).step
        cipher call).1 = .established stage4 session →
      ∃ clientNonce clientDeviceId,
        Machine.accepted (step cipher) ServerReply.isAccepted
          (new selection cameraNonce serverDeviceId) calls =
            [.handleStage1 (packRecord 1 clientNonce clientDeviceId)] ∧
        call = .finishStage3 (expectedStage3 cipher selection clientNonce cameraNonce)) ∧
    (Machine.outputs (step cipher) (new selection cameraNonce serverDeviceId) calls).countP
      ServerReply.isSession ≤ 1 ∧
    ∀ call e,
      ((Machine.run (step cipher) (new selection cameraNonce serverDeviceId) calls).step
        cipher call).1 = .rejected e →
      ((Machine.run (step cipher) (new selection cameraNonce serverDeviceId) calls).step
        cipher call).2 =
          Machine.run (step cipher) (new selection cameraNonce serverDeviceId) calls := by
  have hg := granted_run cipher selection cameraNonce serverDeviceId calls
  set server := Machine.run (step cipher) (new selection cameraNonce serverDeviceId) calls
  refine ⟨fun call stage4 session h => ?_, ?_, fun call e h => ?_⟩
  · rcases step_cases cipher server call with ⟨e, hs⟩ | ⟨_, _, _, _, _, hs⟩ |
      ⟨hst, hc, -⟩
    · rw [hs] at h
      cases h
    · rw [hs] at h
      cases h
    · refine ⟨server.clientNonce, server.clientDeviceId, ?_, ?_⟩
      · rw [hg.accepted_eq, acceptedCalls, hst]
      · rw [hc, hg.selection_eq, hg.cameraNonce_eq]
  · rw [hg.sessions_eq, sessionsGiven]
    split <;> omega
  · rcases step_cases cipher server call with ⟨_, hs⟩ | ⟨_, _, _, _, _, hs⟩ | ⟨_, _, hs⟩
    · rw [hs]
    · rw [hs] at h
      cases h
    · rw [hs] at h
      cases h

/-- A stage-3 record that comes too early, the sampled stage-1 record, and a
stage-3 record with a wrong proof. -/
def sampleCalls : List ServerCall :=
  [.finishStage3 (packRecord 3 sampleClientNonce Block.zero),
    .handleStage1 (packRecord 1 sampleClientNonce sampleClientDeviceId),
    .finishStage3 (packRecord 3 sampleClientNonce Block.zero)]

open NikonLssServer in
/-- After these calls the sampled stage-3 record still establishes a session. -/
theorem responder_session_unique_retried :
    ∃ clientNonce clientDeviceId,
      Machine.accepted (step sampleCipher) ServerReply.isAccepted
        (new sampleSelection sampleCameraNonce sampleServerDeviceId) sampleCalls =
          [.handleStage1 (packRecord 1 clientNonce clientDeviceId)] ∧
      .finishStage3 (packRecord 3 sampleClientNonce
          ⟨[0x16, 0x27, 0xd6, 0x21, 0x3d, 0x9a, 0x90, 0x23], rfl⟩) =
        ServerCall.finishStage3
          (expectedStage3 sampleCipher sampleSelection clientNonce sampleCameraNonce) := by
  have hs : ((Machine.run (step sampleCipher)
      (new sampleSelection sampleCameraNonce sampleServerDeviceId) sampleCalls).step sampleCipher
        (.finishStage3 (packRecord 3 sampleClientNonce
          ⟨[0x16, 0x27, 0xd6, 0x21, 0x3d, 0x9a, 0x90, 0x23], rfl⟩))).1.isSession = true := by
    decide +kernel
  cases hr : ((Machine.run (step sampleCipher)
      (new sampleSelection sampleCameraNonce sampleServerDeviceId) sampleCalls).step sampleCipher
        (.finishStage3 (packRecord 3 sampleClientNonce
          ⟨[0x16, 0x27, 0xd6, 0x21, 0x3d, 0x9a, 0x90, 0x23], rfl⟩))).1 with
  | rejected e =>
    rw [hr] at hs
    cases hs
  | stage2 record =>
    rw [hr] at hs
    cases hs
  | established stage4 session =>
    exact (responder_session_unique sampleCipher sampleSelection sampleCameraNonce
      sampleServerDeviceId sampleCalls).1 _ stage4 session hr

end Ptpsim.Primitives
