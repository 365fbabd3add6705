/-
# The Nikon LSS session cipher and its records

The Linkage Setting Service authenticates with four 17-byte records and then
encrypts fields with Blowfish in a zero-IV chaining. Both roles share the
records (`packRecord`, `unpackRecord`), the proof over the eight-row table
(`authenticationProof`) and the session of a completed exchange
(`deriveSession`).

Blowfish is a dependency of the crate. It enters as a `BlockCipher`, the two
block functions under a key; that they are inverse to each other is the
hypothesis `BlockCipher.Lawful`. The chained functions are those of `Chaining`.
A session carries the proof that its key is the one its restore material
derives, so a restored session is the session.
-/
import Mathlib.Data.List.FinRange
import Mathlib.Data.List.TakeDrop
import Mathlib.Logic.Equiv.Basic
import Ptpsim.Lib.Bytes
import Ptpsim.Lib.Chaining

namespace Ptpsim.Primitives

open Chaining List

/-! ### Blocks -/

/-- `[u8; 8]`: a cipher block, a nonce, a device id or a key. -/
structure Block where
  bytes : List UInt8
  length_eq : bytes.length = 8
deriving DecidableEq, Repr

namespace Block

/-- `[0; 8]` overwritten by a slice. -/
def copyFrom (v : List UInt8) : Block := ⟨v.takeD 8 0, takeD_length ..⟩

def zero : Block := copyFrom []

/-- `for (byte, other) in bytes.iter_mut().zip(other) { *byte ^= other }`. -/
def xor (a b : Block) : Block :=
  ⟨List.zipWith (· ^^^ ·) a.bytes b.bytes, by simp [a.length_eq, b.length_eq]⟩

theorem ext_bytes {a b : Block} (h : a.bytes = b.bytes) : a = b := by
  obtain ⟨as, ha⟩ := a
  congr

theorem bytes_copyFrom {v : List UInt8} (h : v.length = 8) : (copyFrom v).bytes = v := by
  show v.takeD 8 0 = v
  rw [takeD_eq_take _ h.ge, take_of_length_le h.le]

theorem copyFrom_bytes (b : Block) : copyFrom b.bytes = b := ext_bytes (bytes_copyFrom b.length_eq)

theorem zipWith_xor_cancel : ∀ as bs : List UInt8, as.length = bs.length →
    List.zipWith (· ^^^ ·) (List.zipWith (· ^^^ ·) as bs) bs = as
  | [], [], _ => rfl
  | a :: as, b :: bs, h => by
    have hc : a ^^^ b ^^^ b = a := by
      rw [UInt8.xor_assoc, UInt8.xor_self, UInt8.xor_zero]
    have ht : as.length = bs.length := by simpa using h
    simp only [zipWith_cons_cons, hc, zipWith_xor_cancel as bs ht]

theorem masking_xor : Masking xor where
  comm _ _ := ext_bytes (zipWith_comm_of_comm fun x y => UInt8.xor_comm x y)
  cancel a b := ext_bytes (zipWith_xor_cancel a.bytes b.bytes (a.length_eq.trans b.length_eq.symm))

end Block

/-- Blowfish: block encryption and decryption under a key. -/
structure BlockCipher where
  encryptBlock : Block → Block → Block
  decryptBlock : Block → Block → Block

/-- Under every key the two block functions undo each other. -/
structure BlockCipher.Lawful (cipher : BlockCipher) : Prop where
  decrypt_encrypt : ∀ key, Function.LeftInverse (cipher.decryptBlock key) (cipher.encryptBlock key)
  encrypt_decrypt : ∀ key, Function.LeftInverse (cipher.encryptBlock key) (cipher.decryptBlock key)

/-! ### The authentication table -/

def cipherBlockLength : ℕ := 8
def authRecordLength : ℕ := 17

def initialChain : Block := ⟨[1, 2, 3, 4, 5, 6, 7, 8], rfl⟩

/-- Fixed compatibility key of the authentication proof. -/
def authenticationKey : Block := ⟨[0xff, 0xff, 0xaa, 0x55, 0x11, 0x22, 0x33, 0x00], rfl⟩

/-- The eight selections, each a block as two big-endian words. -/
def authenticationTable : List (UInt32 × UInt32) :=
  [(0x704066e4, 0x0433d552), (0xed4b8fac, 0x15f7e47b), (0x24471f11, 0x8b5ea1fc),
    (0x05960c31, 0x2b8c7f41), (0xfda588c1, 0xeba8b1f3), (0x99166056, 0x1bd3d550),
    (0xcd32687f, 0xa9e28a30), (0x2a8fe834, 0xdec7ebf4)]

inductive NikonLssError where
  | invalidRecordLength (actual : ℕ)
  | unexpectedStage (expected actual : UInt8)
  | invalidState (state : String)
  | authenticationFailed
  | invalidCipherLength (actual : ℕ)
deriving DecidableEq, Repr

/-- One of the rows, by its stable index. -/
structure AuthenticationSelection where
  index : UInt8
  valid : index.toNat < authenticationTable.length
deriving DecidableEq, Repr

/-- `(0..TABLE.len()).map(|index| NikonLssAuthenticationSelection(index as u8))`. -/
def AuthenticationSelection.all : List AuthenticationSelection :=
  (List.finRange authenticationTable.length).map fun i : Fin 8 => ⟨UInt8.ofNat i.val, by
    rw [UInt8.toNat_ofNat', Nat.mod_eq_of_lt (by omega)]
    exact i.isLt⟩

/-- The row of a selection as one block. -/
def AuthenticationSelection.tableBlock (selection : AuthenticationSelection) : Block :=
  let words := authenticationTable.get ⟨selection.index.toNat, selection.valid⟩
  ⟨(leBytes 4 words.1.toNat).reverse ++ (leBytes 4 words.2.toNat).reverse, by simp⟩

theorem AuthenticationSelection.mem_all (selection : AuthenticationSelection) :
    selection ∈ all := by
  obtain ⟨index, valid⟩ := selection
  refine mem_map.mpr ⟨⟨index.toNat, valid⟩, mem_finRange _, ?_⟩
  simp only [UInt8.ofNat_toNat]

theorem AuthenticationSelection.tableBlock_injective : Function.Injective tableBlock := by
  have hall : ∀ a ∈ all, ∀ b ∈ all, tableBlock a = tableBlock b → a = b := by decide +kernel
  intro a b h
  exact hall a a.mem_all b b.mem_all h

/-! ### Records -/

def packRecord (stage : UInt8) (first second : Block) : List UInt8 :=
  stage :: (first.bytes ++ second.bytes)

def unpackRecord (record : List UInt8) (expectedStage : UInt8) :
    Except NikonLssError (UInt8 × Block × Block) :=
  if record.length ≠ authRecordLength then .error (.invalidRecordLength record.length)
  else if record.headD 0 ≠ expectedStage then
    .error (.unexpectedStage expectedStage (record.headD 0))
  else
    .ok (record.headD 0, Block.copyFrom ((record.drop 1).take 8),
      Block.copyFrom ((record.drop 9).take 8))

theorem length_packRecord (stage : UInt8) (first second : Block) :
    (packRecord stage first second).length = authRecordLength := by
  simp [packRecord, first.length_eq, second.length_eq, authRecordLength]

/-- A record is unpacked exactly from what `packRecord` makes of its parts. -/
theorem unpackRecord_ok_iff {record : List UInt8} {expected stage : UInt8} {first second : Block} :
    unpackRecord record expected = .ok (stage, first, second) ↔
      stage = expected ∧ record = packRecord expected first second := by
  constructor
  · intro h
    unfold unpackRecord at h
    by_cases hlen : record.length ≠ authRecordLength
    · rw [if_pos hlen] at h
      cases h
    by_cases hst : record.headD 0 ≠ expected
    · rw [if_neg hlen, if_pos hst] at h
      cases h
    rw [if_neg hlen, if_neg hst] at h
    simp only [Except.ok.injEq, Prod.mk.injEq] at h
    obtain ⟨hs, hfi, hse⟩ := h
    have hlen : record.length = 17 := not_not.mp hlen
    have hst := not_not.mp hst
    refine ⟨hs.symm.trans hst, ?_⟩
    obtain _ | ⟨b, body⟩ := record
    · simp at hlen
    have hb : body.length = 16 := by simpa using hlen
    have hf : first.bytes = body.take 8 := by
      rw [← hfi, Block.bytes_copyFrom (by simp [hb])]
      rfl
    have hs : second.bytes = body.drop 8 := by
      rw [← hse, Block.bytes_copyFrom (by simp [hb])]
      exact take_of_length_le (by simp [hb])
    rw [packRecord, hf, hs, take_append_drop, ← hst]
    rfl
  · rintro ⟨rfl, rfl⟩
    have hfi : (first.bytes ++ second.bytes).take 8 = first.bytes := take_left' first.length_eq
    have hse : (first.bytes ++ second.bytes).drop 8 = second.bytes := drop_left' first.length_eq
    unfold unpackRecord
    rw [if_neg (not_not.mpr (length_packRecord ..)), if_neg (by simp [packRecord])]
    simp only [packRecord, headD_cons, drop_succ_cons, drop_zero, hfi, hse,
      take_of_length_le second.length_eq.le, Block.copyFrom_bytes]

@[simp] theorem unpackRecord_packRecord (stage : UInt8) (first second : Block) :
    unpackRecord (packRecord stage first second) stage = .ok (stage, first, second) :=
  unpackRecord_ok_iff.mpr ⟨rfl, rfl⟩

/-! ### Proofs -/

variable (cipher : BlockCipher)

def authenticationHash (blocks : List Block) : Block :=
  digest (cipher.encryptBlock authenticationKey) Block.xor initialChain blocks

def authenticationProof (selection : AuthenticationSelection) (first second : Block) : Block :=
  authenticationHash cipher [selection.tableBlock, first, second]

variable {cipher}

theorem authenticationProof_injective
    (hc : Function.Injective (cipher.encryptBlock authenticationKey)) (first second : Block) :
    Function.Injective fun selection => authenticationProof cipher selection first second := by
  intro a b h
  apply AuthenticationSelection.tableBlock_injective
  exact digest_first_injective hc Block.masking_xor initialChain [first, second] h

variable (cipher)

/-! ### Sessions -/

/-- The compact inputs a session is derived from. -/
structure NikonLssRestoreMaterial where
  selection : AuthenticationSelection
  clientNonce : Block
  cameraNonce : Block
  clientDeviceId : Block
  serverDeviceId : Block
deriving DecidableEq, Repr

/-- `summary` of `derive_session`: the index, three bytes of the camera nonce
and four of the client nonce. -/
def NikonLssRestoreMaterial.summary (m : NikonLssRestoreMaterial) : Block :=
  ⟨m.selection.index :: (((m.cameraNonce.bytes.drop 1).take 3) ++ m.clientNonce.bytes.take 4), by
    simp [m.cameraNonce.length_eq, m.clientNonce.length_eq]⟩

/-- The seed of `derive_session`, which is the key of the session cipher. -/
def NikonLssRestoreMaterial.seed (m : NikonLssRestoreMaterial) : Block :=
  authenticationHash cipher [m.serverDeviceId, m.clientDeviceId, m.summary]

/-- An established session. Its fields are private to the source, and
`derive_session` is the only function that makes one. -/
structure NikonLssSession where
  key : Block
  restore : NikonLssRestoreMaterial
  key_eq : key = restore.seed cipher

def deriveSession (selection : AuthenticationSelection) (clientNonce cameraNonce clientDeviceId
    serverDeviceId : Block) : NikonLssSession cipher :=
  let restore := ⟨selection, clientNonce, cameraNonce, clientDeviceId, serverDeviceId⟩
  ⟨restore.seed cipher, restore, rfl⟩

/-- `chunks_exact(8)`, for the given number of chunks. -/
def chunks : ℕ → List UInt8 → List Block
  | 0, _ => []
  | n + 1, bytes => Block.copyFrom (bytes.take cipherBlockLength) ::
      chunks n (bytes.drop cipherBlockLength)

def chunksExact (bytes : List UInt8) : List Block := chunks (bytes.length / cipherBlockLength) bytes

def validateCipherLength (bytes : List UInt8) : Except NikonLssError Unit :=
  if bytes.length % cipherBlockLength = 0 then .ok ()
  else .error (.invalidCipherLength bytes.length)

/-- Opaque in-process checkpoint; `version` is 1 in every context there is. -/
structure NikonLssContext where
  version : UInt8
  restore : NikonLssRestoreMaterial
  version_eq : version = 1

namespace NikonLssSession

variable {cipher} (session : NikonLssSession cipher)

def encrypt (plaintext : List UInt8) : Except NikonLssError (List UInt8) := do
  validateCipherLength plaintext
  pure ((encryptFrom (cipher.encryptBlock session.key) Block.xor Block.zero
    (chunksExact plaintext)).flatMap Block.bytes)

def decrypt (ciphertext : List UInt8) : Except NikonLssError (List UInt8) := do
  validateCipherLength ciphertext
  pure ((decryptFrom (cipher.decryptBlock session.key) Block.xor Block.zero
    (chunksExact ciphertext)).flatMap Block.bytes)

def checkpoint : NikonLssContext := ⟨1, session.restore, rfl⟩

/-- `restore`: the schedule is regenerated from the semantic inputs. -/
def restored (cipher : BlockCipher) (context : NikonLssContext) : NikonLssSession cipher :=
  deriveSession cipher context.restore.selection context.restore.clientNonce
    context.restore.cameraNonce context.restore.clientDeviceId context.restore.serverDeviceId

end NikonLssSession

/-! ### Whole messages -/

theorem length_flatMap_bytes : ∀ blocks : List Block,
    (blocks.flatMap Block.bytes).length = 8 * blocks.length
  | [] => rfl
  | b :: blocks => by
    rw [flatMap_cons, length_append, length_flatMap_bytes blocks, b.length_eq, length_cons]
    omega

theorem chunks_flatMap : ∀ blocks : List Block,
    chunks blocks.length (blocks.flatMap Block.bytes) = blocks
  | [] => rfl
  | b :: blocks => by
    have ht : (b.bytes ++ blocks.flatMap Block.bytes).take cipherBlockLength = b.bytes :=
      take_left' b.length_eq
    have hd : (b.bytes ++ blocks.flatMap Block.bytes).drop cipherBlockLength =
        blocks.flatMap Block.bytes := drop_left' b.length_eq
    rw [length_cons, flatMap_cons, chunks, ht, hd, Block.copyFrom_bytes, chunks_flatMap blocks]

theorem chunksExact_flatMap (blocks : List Block) :
    chunksExact (blocks.flatMap Block.bytes) = blocks := by
  have hc : (blocks.flatMap Block.bytes).length / cipherBlockLength = blocks.length := by
    rw [length_flatMap_bytes, cipherBlockLength]
    omega
  rw [chunksExact, hc, chunks_flatMap]

theorem flatMap_chunks : ∀ (n : ℕ) (bytes : List UInt8), bytes.length = 8 * n →
    (chunks n bytes).flatMap Block.bytes = bytes
  | 0, bytes, h => by
    rw [length_eq_zero_iff.mp (by omega : bytes.length = 0)]
    rfl
  | n + 1, bytes, h => by
    have hh : (bytes.take cipherBlockLength).length = 8 := by
      rw [length_take, cipherBlockLength]
      omega
    have ht : (bytes.drop cipherBlockLength).length = 8 * n := by
      rw [length_drop, cipherBlockLength]
      omega
    rw [chunks, flatMap_cons, Block.bytes_copyFrom hh, flatMap_chunks n _ ht, take_append_drop]

theorem flatMap_chunksExact {bytes : List UInt8} (h : bytes.length % 8 = 0) :
    (chunksExact bytes).flatMap Block.bytes = bytes := by
  apply flatMap_chunks
  rw [cipherBlockLength]
  omega

namespace NikonLssSession

variable {cipher} (session : NikonLssSession cipher) {message : List UInt8}

theorem encrypt_aligned (h : message.length % 8 = 0) :
    session.encrypt message = .ok ((encryptFrom (cipher.encryptBlock session.key) Block.xor
      Block.zero (chunksExact message)).flatMap Block.bytes) := by
  unfold encrypt validateCipherLength
  rw [cipherBlockLength, if_pos h]
  rfl

theorem decrypt_aligned (h : message.length % 8 = 0) :
    session.decrypt message = .ok ((decryptFrom (cipher.decryptBlock session.key) Block.xor
      Block.zero (chunksExact message)).flatMap Block.bytes) := by
  unfold decrypt validateCipherLength
  rw [cipherBlockLength, if_pos h]
  rfl

theorem validate_unaligned (h : message.length % 8 ≠ 0) :
    validateCipherLength message = .error (.invalidCipherLength message.length) := by
  unfold validateCipherLength
  rw [cipherBlockLength, if_neg h]

theorem encrypt_unaligned (h : message.length % 8 ≠ 0) :
    session.encrypt message = .error (.invalidCipherLength message.length) := by
  unfold encrypt
  rw [validate_unaligned h]
  rfl

theorem decrypt_unaligned (h : message.length % 8 ≠ 0) :
    session.decrypt message = .error (.invalidCipherLength message.length) := by
  unfold decrypt
  rw [validate_unaligned h]
  rfl

theorem restore_checkpoint : restored cipher session.checkpoint = session := by
  obtain ⟨key, restore, rfl⟩ := session
  rfl

end NikonLssSession

/-- **The session cipher.** On whole blocks, of any number, decryption and
encryption undo each other; every other length is refused by both; and a
restored session is as good as the one it was taken from. -/
theorem session_cipher_inverse (hcipher : cipher.Lawful) (session : NikonLssSession cipher) :
    (∀ message : List UInt8, message.length % 8 = 0 →
      (∃ ciphertext, session.encrypt message = .ok ciphertext ∧
        session.decrypt ciphertext = .ok message) ∧
      ∃ plaintext, session.decrypt message = .ok plaintext ∧
        session.encrypt plaintext = .ok message) ∧
    (∀ message : List UInt8, message.length % 8 ≠ 0 →
      session.encrypt message = .error (.invalidCipherLength message.length) ∧
      session.decrypt message = .error (.invalidCipherLength message.length)) ∧
    ∀ message : List UInt8,
      (NikonLssSession.restored cipher session.checkpoint).encrypt message =
        session.encrypt message ∧
      (NikonLssSession.restored cipher session.checkpoint).decrypt message =
        session.decrypt message := by
  have ha : ∀ blocks : List Block, (blocks.flatMap Block.bytes).length % 8 = 0 := by
    intro blocks
    rw [length_flatMap_bytes]
    omega
  refine ⟨fun message h => ⟨⟨_, session.encrypt_aligned h, ?_⟩, ⟨_, session.decrypt_aligned h, ?_⟩⟩,
    fun message h => ⟨session.encrypt_unaligned h, session.decrypt_unaligned h⟩, fun message => ?_⟩
  · rw [session.decrypt_aligned (ha _), chunksExact_flatMap,
      decryptFrom_encryptFrom (hcipher.decrypt_encrypt session.key) Block.masking_xor,
      flatMap_chunksExact h]
  · rw [session.encrypt_aligned (ha _), chunksExact_flatMap,
      encryptFrom_decryptFrom (hcipher.encrypt_decrypt session.key) Block.masking_xor,
      flatMap_chunksExact h]
  · rw [session.restore_checkpoint]
    exact ⟨rfl, rfl⟩

/-! ### One exchange under Blowfish

The blocks of one exchange, of the session it establishes and of a two-block
message, with what Blowfish makes of them. -/

/-- Input and output blocks under the authentication key. -/
def sampleAuthentication : List (List UInt8 × List UInt8) :=
  [
    ([0x71, 0x42, 0x65, 0xe0, 0x01, 0x35, 0xd2, 0x5a],
      [0xd8, 0x5c, 0x2a, 0x43, 0xd9, 0xc7, 0xe7, 0xa1]),
    ([0x8d, 0x3a, 0x5d, 0x43, 0xd8, 0xc5, 0xe4, 0xa5],
      [0xe6, 0x46, 0x33, 0x3e, 0x0f, 0x9f, 0x3c, 0x2e]),
    ([0xe7, 0x65, 0x76, 0x59, 0x1e, 0xbd, 0x0f, 0x6a],
      [0xce, 0xbe, 0x86, 0x0c, 0xad, 0xb1, 0x0d, 0x0f]),
    ([0xec, 0x49, 0x8c, 0xa8, 0x10, 0xf1, 0xe3, 0x73],
      [0x15, 0xa1, 0xb6, 0x78, 0x6a, 0xca, 0x27, 0xca]),
    ([0x40, 0xc7, 0xc1, 0x78, 0x6b, 0xc8, 0x24, 0xce],
      [0xaa, 0x06, 0x38, 0x28, 0x4a, 0x95, 0xfb, 0x9c]),
    ([0xab, 0x25, 0x7d, 0x4f, 0x5b, 0xb7, 0xc8, 0xd8],
      [0x02, 0x94, 0x6b, 0xdc, 0xe3, 0x68, 0xfa, 0x14]),
    ([0x14, 0x82, 0xf3, 0x1f, 0x7b, 0xe8, 0x14, 0x8e],
      [0xdb, 0x36, 0x3f, 0xb8, 0x80, 0x6a, 0x6a, 0xf5]),
    ([0x8e, 0x50, 0x48, 0xb8, 0x81, 0x68, 0x69, 0xf1],
      [0x16, 0x27, 0xd6, 0x21, 0x3d, 0x9a, 0x90, 0x23]),
    ([0xd1, 0xd3, 0xd1, 0xd7, 0xd1, 0xd3, 0xd1, 0xdf],
      [0xc6, 0xd7, 0x0e, 0x88, 0xef, 0x92, 0xbf, 0x95]),
    ([0x06, 0x16, 0xcc, 0x4b, 0x2b, 0x57, 0x79, 0x52],
      [0x3c, 0x4b, 0x94, 0x11, 0x30, 0x54, 0x06, 0x72]),
    ([0x3d, 0x2d, 0xe3, 0x11, 0x31, 0x77, 0x43, 0x15],
      [0x8e, 0x6d, 0xe2, 0x60, 0x41, 0x84, 0x44, 0x3e])]

/-- Input and output blocks under the key of the session. -/
def sampleSession : List (List UInt8 × List UInt8) :=
  [
    ([0x30, 0x31, 0x32, 0x33, 0x34, 0x35, 0x36, 0x37],
      [0x58, 0xa5, 0x06, 0xfc, 0xa0, 0x85, 0xf6, 0x35]),
    ([0x60, 0x9c, 0x47, 0xbe, 0xe3, 0xc1, 0xb3, 0x73],
      [0x07, 0xd2, 0x2c, 0x64, 0xd2, 0x53, 0x33, 0x5f])]

/-- The permutation that exchanges the two blocks of each entry, in order. -/
def swaps (entries : List (List UInt8 × List UInt8)) : Equiv.Perm Block :=
  entries.foldl
    (fun perm entry => perm.trans (Equiv.swap (Block.copyFrom entry.1) (Block.copyFrom entry.2)))
    (Equiv.refl Block)

/-- A permutation of the blocks under every key, with Blowfish's values at the
sampled blocks. -/
def samplePerm (key : Block) : Equiv.Perm Block :=
  if key = authenticationKey then swaps sampleAuthentication else swaps sampleSession

def sampleCipher : BlockCipher :=
  ⟨fun key => samplePerm key, fun key => (samplePerm key).symm⟩

theorem sampleCipher_lawful : sampleCipher.Lawful where
  decrypt_encrypt key := (samplePerm key).left_inv
  encrypt_decrypt key := (samplePerm key).right_inv

def sampleClientNonce : Block := ⟨[0x01, 0x23, 0x45, 0x67, 0x11, 0x22, 0x33, 0x44], rfl⟩
def sampleCameraNonce : Block := ⟨[0x55, 0x66, 0x77, 0x00, 0x01, 0x02, 0x03, 0x04], rfl⟩
def sampleClientDeviceId : Block := ⟨[0xc0, 0xc1, 0xc2, 0xc3, 0xc4, 0xc5, 0xc6, 0xc7], rfl⟩
def sampleServerDeviceId : Block := ⟨[0xd0, 0xd1, 0xd2, 0xd3, 0xd4, 0xd5, 0xd6, 0xd7], rfl⟩
def sampleSelection : AuthenticationSelection := ⟨1, by decide⟩

/-- The session both sides derive in the sampled exchange. -/
def sampleEstablished : NikonLssSession sampleCipher :=
  deriveSession sampleCipher sampleSelection sampleClientNonce sampleCameraNonce
    sampleClientDeviceId sampleServerDeviceId

/-- `0123456789ABCDEF`. -/
def sampleMessage : List UInt8 :=
  [0x30, 0x31, 0x32, 0x33, 0x34, 0x35, 0x36, 0x37,
    0x38, 0x39, 0x41, 0x42, 0x43, 0x44, 0x45, 0x46]

def sampleCiphertext : List UInt8 :=
  [0x58, 0xa5, 0x06, 0xfc, 0xa0, 0x85, 0xf6, 0x35,
    0x07, 0xd2, 0x2c, 0x64, 0xd2, 0x53, 0x33, 0x5f]

/-- Two blocks through the sampled session: the ciphertext is Blowfish's, and
it decrypts to the message. -/
theorem session_cipher_inverse_twoBlocks :
    sampleEstablished.encrypt sampleMessage = .ok sampleCiphertext ∧
      sampleEstablished.decrypt sampleCiphertext = .ok sampleMessage := by
  have he : sampleEstablished.encrypt sampleMessage = .ok sampleCiphertext := by
    decide +kernel
  refine ⟨he, ?_⟩
  obtain ⟨ciphertext, hc, hd⟩ :=
    ((session_cipher_inverse sampleCipher sampleCipher_lawful sampleEstablished).1 sampleMessage
      (by decide)).1
  rw [he] at hc
  cases hc
  exact hd

end Ptpsim.Primitives
