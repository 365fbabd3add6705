/-
# Initialisation frames

The packets that open a command connection have a fixed layout: a length and a
type, a GUID, perhaps an address or a connection number, and a name in a field
of UTF-16 units. There are four of them: the PCSS request and its
acknowledgement, the request of the reference app, and that of the legacy app.

What a builder accepts is parsed back. The acknowledgement and the legacy
request are canonical as well: their parsers look at every byte, so that what
they accept is what the builder makes of the fields.
-/
import Ptpsim.Lib.Fallible
import Ptpsim.Lib.FixedFields
import Ptpsim.Lib.Utf16

namespace Ptpsim.Primitives

open Fallible FixedFields List

structure Ipv4Addr where
  a : UInt8
  b : UInt8
  c : UInt8
  d : UInt8
deriving DecidableEq

namespace Ipv4Addr

/-- `u32::from(ip).to_le_bytes()`: the number has the first octet on top. -/
def toLeBytes (ip : Ipv4Addr) : List UInt8 := [ip.d, ip.c, ip.b, ip.a]

/-- `Ipv4Addr::from(u32::from_le_bytes(..))` -/
def ofLeBytes : List UInt8 → Ipv4Addr
  | [d, c, b, a] => ⟨a, b, c, d⟩
  | _ => ⟨0, 0, 0, 0⟩

theorem ofLeBytes_toLeBytes (ip : Ipv4Addr) : ofLeBytes ip.toLeBytes = ip := rfl

theorem toLeBytes_ofLeBytes {bytes : List UInt8} (h : bytes.length = 4) :
    (ofLeBytes bytes).toLeBytes = bytes := by
  match bytes, h with
  | [d, c, b, a], _ => rfl

end Ipv4Addr

/-- `[u8; 16]` -/
abbrev Guid := { bytes : List UInt8 // bytes.length = 16 }

/-- `copy_from_slice` into `[0; 16]`; the slice has the right length. -/
def Guid.ofSlice (bytes : List UInt8) : Guid :=
  if h : bytes.length = 16 then ⟨bytes, h⟩ else ⟨List.replicate 16 0, by simp⟩

variable {bytes : List UInt8} {name : String}

theorem Guid.ofSlice_val (h : bytes.length = 16) : (Guid.ofSlice bytes).val = bytes := by
  rw [ofSlice, dif_pos h]

theorem Guid.ofSlice_self (guid : Guid) : Guid.ofSlice guid.val = guid := by
  rw [ofSlice, dif_pos guid.2]

/-- A little-endian `u32` of the packet. -/
def wordAt (packet : List UInt8) (start : ℕ) : ℕ := leNat (slice packet start (start + 4))

def utf16 (name : String) : List UInt16 := Utf16.encode name.toList

/-- `String::from_utf16` -/
def fromUtf16 (units : List UInt16) : Option String := (Utf16.decode units).map String.ofList

theorem fromUtf16_utf16 (name : String) : fromUtf16 (utf16 name) = some name := by
  rw [fromUtf16, utf16, Utf16.decode_encode, Option.map_some, String.ofList_toList]

theorem utf16_of_fromUtf16 {units : List UInt16} (h : fromUtf16 units = some name) :
    utf16 name = units := by
  obtain ⟨cs, hcs, rfl⟩ := Option.map_eq_some_iff.mp h
  rw [utf16, String.toList_ofList]
  exact Utf16.encode_of_decode hcs

/-! ### The PCSS request -/

def initLen : ℕ := 82
def initPacketType : ℕ := 1
def ipOffset : ℕ := 0x18
def nameOffset : ℕ := 0x1c
def zeroTailOffset : ℕ := 0x36

structure PcssInit where
  initiatorGuid : Guid
  clientIp : Ipv4Addr
  hostname : String
deriving DecidableEq

inductive PcssInitError where
  | wrongLength (n : ℕ)
  | wrongPacketType (t : ℕ)
  | missingHostnameTerminator
  | invalidHostname
  | hostnameTooLong
  | nonZeroTail
deriving DecidableEq

def pcssInitMessage (init : PcssInit) : Except PcssInitError (List UInt8) :=
  let hostname := utf16 init.hostname
  if hostname.contains 0 then .error .invalidHostname
  else if hostname.length > (zeroTailOffset - nameOffset) / 2 - 1 then .error .hostnameTooLong
  else .ok (leBytes 4 initLen ++ leBytes 4 initPacketType ++ (init.initiatorGuid.val ++
    (init.clientIp.toLeBytes ++ (padded ((zeroTailOffset - nameOffset) / 2) hostname ++
      List.replicate (initLen - zeroTailOffset) 0))))

/-- The units up to the first zero; what stands behind it is not looked at. -/
def decodeUnits : List UInt16 → List UInt16 → Except PcssInitError String
  | [], _ => .error .missingHostnameTerminator
  | unit :: rest, units =>
    if unit = 0 then
      match fromUtf16 units with
      | some name => .ok name
      | none => .error .invalidHostname
    else decodeUnits rest (units ++ [unit])

def decodeFixedUtf16Name (bytes : List UInt8) : Except PcssInitError String :=
  decodeUnits (pairs bytes) []

def parsePcssInit (bytes : List UInt8) : Except PcssInitError PcssInit :=
  if bytes.length ≠ initLen then .error (.wrongLength bytes.length)
  else if wordAt bytes 0 ≠ initLen then .error (.wrongLength (wordAt bytes 0))
  else if wordAt bytes 4 ≠ initPacketType then .error (.wrongPacketType (wordAt bytes 4))
  else if (bytes.drop zeroTailOffset).any (· ≠ 0) then .error .nonZeroTail
  else do
    let hostname ← decodeFixedUtf16Name (slice bytes nameOffset zeroTailOffset)
    return ⟨Guid.ofSlice (slice bytes 8 24), .ofLeBytes (slice bytes ipOffset (ipOffset + 4)),
      hostname⟩

/-! ### The PCSS acknowledgement -/

def initAckLen : ℕ := 68
def initAckPacketType : ℕ := 2
def initAckNameOffset : ℕ := 28

structure PcssInitAck where
  connectionNumber : UInt32
  responderGuid : Guid
  friendlyName : String
deriving DecidableEq

inductive PcssInitAckError where
  | wrongLength (n : ℕ)
  | wrongPacketType (t : ℕ)
  | missingFriendlyNameTerminator
  | invalidFriendlyName
  | friendlyNameTooLong
  | nonZeroNameTail
deriving DecidableEq

def pcssInitAckMessage (ack : PcssInitAck) : Except PcssInitAckError (List UInt8) :=
  let friendlyName := utf16 ack.friendlyName
  if friendlyName.contains 0 then .error .invalidFriendlyName
  else if friendlyName.length > (initAckLen - initAckNameOffset) / 2 - 1 then
    .error .friendlyNameTooLong
  else .ok (leBytes 4 initAckLen ++ leBytes 4 initAckPacketType ++
    (leBytes 4 ack.connectionNumber.toNat ++ (ack.responderGuid.val ++
      padded ((initAckLen - initAckNameOffset) / 2) friendlyName)))

/-- A name with a zero unit behind it and nothing but zeros then; the errors
are those of the packet it stands in. -/
def terminatedName {ε : Type} (unterminated tail invalid : ε) (name : List UInt8) :
    Except ε String :=
  match (pairs name).findIdx? (· == 0) with
  | none => .error unterminated
  | some terminator =>
    if (name.drop ((terminator + 1) * 2)).any (· ≠ 0) then .error tail
    else
      match fromUtf16 (pairs (name.take (terminator * 2))) with
      | some name => .ok name
      | none => .error invalid

def parsePcssInitAck (bytes : List UInt8) : Except PcssInitAckError PcssInitAck :=
  if bytes.length ≠ initAckLen then .error (.wrongLength bytes.length)
  else if wordAt bytes 0 ≠ initAckLen then .error (.wrongLength (wordAt bytes 0))
  else if wordAt bytes 4 ≠ initAckPacketType then .error (.wrongPacketType (wordAt bytes 4))
  else do
    let friendlyName ← terminatedName .missingFriendlyNameTerminator .nonZeroNameTail
      .invalidFriendlyName (bytes.drop initAckNameOffset)
    return ⟨UInt32.ofNat (wordAt bytes 8), Guid.ofSlice (slice bytes 12 28), friendlyName⟩

/-! ### The requests of the apps -/

/-- The errors of the app requests; a malformed one is named by its text. -/
inductive InitRequestError where
  | guidLength (n : ℕ)
  | initRequest (message : String)
deriving DecidableEq

def nameFieldBytes : ℕ := 54
def maxNameUnits : ℕ := nameFieldBytes / 2 - 1
def appInitBytes : ℕ := 82

/-- An init request with a name only. -/
structure AppInit where
  initiatorGuid : Guid
  friendlyName : String
deriving DecidableEq

/-- The name field of an app's request. -/
def fixedNameField (app name : String) : Except InitRequestError (List UInt8) :=
  if name.toList.contains '\x00' ∨ (utf16 name).length > maxNameUnits then
    .error (.initRequest
      s!"{app} friendly name exceeds {maxNameUnits} UTF-16 units or contains NUL")
  else .ok (padded (nameFieldBytes / 2) (utf16 name))

def buildAppInit (guid : List UInt8) (friendlyName : String) :
    Except InitRequestError (List UInt8) :=
  if guid.length ≠ 16 then .error (.guidLength guid.length)
  else do
    let name ← fixedNameField "reference app" friendlyName
    let payload := guid ++ (leBytes 4 0 ++ name)
    return leBytes 4 (payload.length + 8) ++ leBytes 4 1 ++ payload

/-- The name ends at the first zero unit or with the field. -/
def parseAppInit (packet : List UInt8) : Except InitRequestError AppInit :=
  if packet.length ≠ appInitBytes then
    .error (.initRequest s!"length {packet.length} != {appInitBytes}")
  else if wordAt packet 0 ≠ packet.length then
    .error (.initRequest s!"declared length {wordAt packet 0} != actual {packet.length}")
  else if wordAt packet 4 ≠ 1 then
    .error (.initRequest s!"type {wordAt packet 4} is not Init_Command_Request (1)")
  else if slice packet 24 28 ≠ [0, 0, 0, 0] then
    .error (.initRequest "reserved identity word is non-zero")
  else
    let units := pairs (packet.drop 28)
    let textEnd := (units.findIdx? (· == 0)).getD units.length
    match fromUtf16 (units.take textEnd) with
    | some name => .ok ⟨Guid.ofSlice (slice packet 8 24), name⟩
    | none => .error (.initRequest "friendly name is not UTF-16LE")

/-- An init request with an address. -/
structure LegacyAppInit where
  initiatorGuid : Guid
  clientIp : Ipv4Addr
  friendlyName : String
deriving DecidableEq

def buildLegacyAppInit (guid : List UInt8) (clientIp : Ipv4Addr) (friendlyName : String) :
    Except InitRequestError (List UInt8) :=
  if guid.length ≠ 16 then .error (.guidLength guid.length)
  else do
    let name ← fixedNameField "legacy manufacturer app" friendlyName
    return leBytes 4 initLen ++ leBytes 4 1 ++ (guid ++ (clientIp.toLeBytes ++ name))

def parseLegacyAppInit (packet : List UInt8) : Except InitRequestError LegacyAppInit :=
  if packet.length ≠ initLen then
    .error (.initRequest s!"legacy manufacturer app length {packet.length} != {initLen}")
  else if wordAt packet 0 ≠ initLen then
    .error (.initRequest s!"declared length {wordAt packet 0} != {initLen}")
  else if wordAt packet 4 ≠ 1 then
    .error (.initRequest s!"type {wordAt packet 4} is not Init_Command_Request (1)")
  else do
    let friendlyName ← terminatedName (.initRequest "friendly name is not NUL-terminated")
      (.initRequest "friendly-name tail contains nonzero bytes")
      (.initRequest "friendly name is not UTF-16LE") (packet.drop 28)
    return ⟨Guid.ofSlice (slice packet 8 24), .ofLeBytes (slice packet 24 28), friendlyName⟩

/-! ### Reading the fields -/

section Fields

variable {n t : ℕ} {packet : List UInt8}

/-- A header and three fields, each where the ones before it end. -/
theorem fields_of_packet {a b c : List UInt8} {i j : ℕ}
    (hp : leBytes 4 n ++ leBytes 4 t ++ (a ++ (b ++ c)) = packet) (hn : n < 2 ^ 32)
    (ht : t < 2 ^ 32) (hi : 8 + a.length = i) (hj : i + b.length = j) :
    packet.length = j + c.length ∧ wordAt packet 0 = n ∧ wordAt packet 4 = t ∧
      slice packet 8 i = a ∧ slice packet i j = b ∧ packet.drop j = c := by
  subst hp
  have hh : (leBytes 4 n ++ leBytes 4 t).length = 8 := rfl
  refine ⟨by simp; omega, ?_, ?_, ?_, ?_, ?_⟩
  · rw [wordAt, append_assoc, slice_here (length_leBytes 4 n)]
    exact leNat_leBytes hn
  · rw [wordAt, slice_append (length_leBytes 4 n) (length_leBytes 4 t)]
    exact leNat_leBytes ht
  · rw [← append_assoc]
    exact slice_append hh (by omega)
  · rw [← append_assoc, ← append_assoc]
    exact slice_append (by simp; omega) (by omega)
  · rw [← append_assoc, ← append_assoc]
    exact drop_left' (by simp; omega)

theorem length_word {start : ℕ} (h : start + 4 ≤ packet.length) :
    (slice packet start (start + 4)).length = 4 := by
  rw [length_slice h]
  omega

theorem leBytes_wordAt {start : ℕ} (h : start + 4 ≤ packet.length) :
    leBytes 4 (UInt32.ofNat (wordAt packet start)).toNat = slice packet start (start + 4) := by
  have hlt := leNat_lt (slice packet start (start + 4))
  have hb := leBytes_leNat (slice packet start (start + 4))
  rw [length_word h] at hlt hb
  have hw : (UInt32.ofNat (wordAt packet start)).toNat = wordAt packet start :=
    UInt32.toNat_ofNat_of_lt' hlt
  rw [hw]
  exact hb

theorem header_append_body (h : 8 ≤ packet.length) :
    leBytes 4 (wordAt packet 0) ++ leBytes 4 (wordAt packet 4) ++ packet.drop 8 = packet := by
  have hw : ∀ start, start + 4 ≤ packet.length →
      leBytes 4 (wordAt packet start) = slice packet start (start + 4) := by
    intro start hs
    have hb := leBytes_leNat (slice packet start (start + 4))
    rwa [length_word hs] at hb
  rw [hw 0 (by omega), hw 4 (by omega), slice_append_slice (by omega) (by omega)]
  unfold slice
  rw [drop_zero, Nat.sub_zero, take_append_drop]

end Fields

/-- The name of a field is the text whose field it is. -/
theorem terminatedName_iff {ε : Type} {unterminated tail invalid : ε} {field : List UInt8}
    {width : ℕ} (hl : field.length = 2 * width) :
    terminatedName unterminated tail invalid field = .ok name ↔
      field = padded width (utf16 name) ∧ 0 ∉ utf16 name ∧ (utf16 name).length < width := by
  constructor
  · intro h
    unfold terminatedName at h
    split at h
    · cases h
    case h_2 terminator hfi =>
    split at h
    · cases h
    case isFalse ht =>
    split at h
    case h_2 => cases h
    case h_1 text hte =>
      cases h
      have ht : ∀ b ∈ field.drop ((terminator + 1) * 2), b = 0 := by simpa using ht
      obtain ⟨hf, hz, hbo, hc⟩ := padded_of_terminated hl hfi ht
      rw [utf16_of_fromUtf16 hte]
      exact ⟨hf, hz, by omega⟩
  · rintro ⟨rfl, hz, hbo⟩
    have ht : ((padded width (utf16 name)).drop (((utf16 name).length + 1) * 2)).any (· ≠ 0) =
        false := by
      rw [any_eq_false]
      intro b hb
      simp [drop_padded (by omega) b hb]
    unfold terminatedName
    rw [findIdx?_padded hz hbo]
    simp only [ht, Bool.false_eq_true, if_false]
    rw [Nat.mul_comm, take_padded]
    have hp : pairs (unitBytes (utf16 name)) = utf16 name := by
      have h := pairs_unitBytes [] (utf16 name)
      simpa [pairs] using h
    rw [hp, fromUtf16_utf16]

/-! ### What is built is parsed back -/

theorem decodeUnits_terminated {us rest : List UInt16} (hz : 0 ∉ us) : ∀ units : List UInt16,
    decodeUnits (us ++ 0 :: rest) units =
      match fromUtf16 (units ++ us) with
      | some name => .ok name
      | none => .error .invalidHostname := by
  induction us with
  | nil =>
    simp [decodeUnits]
  | cons u us ih =>
    intro units
    have hu : u ≠ 0 := fun h => hz (h ▸ mem_cons_self)
    rw [cons_append, decodeUnits, if_neg hu, ih (fun h => hz (mem_cons_of_mem u h)), append_assoc]
    rfl

theorem decodeFixedUtf16Name_padded {width : ℕ} (hz : 0 ∉ utf16 name)
    (hb : (utf16 name).length < width) :
    decodeFixedUtf16Name (padded width (utf16 name)) = .ok name := by
  obtain ⟨k, hk⟩ : ∃ k, width - (utf16 name).length = k + 1 :=
    ⟨width - (utf16 name).length - 1, by omega⟩
  rw [decodeFixedUtf16Name, pairs_padded, hk, replicate_succ, decodeUnits_terminated hz,
    nil_append, fromUtf16_utf16]

theorem pcssInitMessage_iff {init : PcssInit} :
    pcssInitMessage init = .ok bytes ↔ 0 ∉ utf16 init.hostname ∧ (utf16 init.hostname).length < 13 ∧
      leBytes 4 82 ++ leBytes 4 1 ++ (init.initiatorGuid.val ++ (init.clientIp.toLeBytes ++
        (padded 13 (utf16 init.hostname) ++ List.replicate 28 0))) = bytes := by
  have hmax : (zeroTailOffset - nameOffset) / 2 - 1 = 12 := rfl
  unfold pcssInitMessage
  rw [guard_eq_ok_iff, guard_eq_ok_iff, Except.ok.injEq, contains_iff_mem, hmax, gt_iff_lt, not_lt,
    ← Nat.lt_succ_iff]
  rfl

theorem parsePcssInit_message {init : PcssInit} (h : pcssInitMessage init = .ok bytes) :
    parsePcssInit bytes = .ok init := by
  obtain ⟨hz, hb, rfl⟩ := pcssInitMessage_iff.mp h
  have hn := length_padded hb.le
  have hg := init.initiatorGuid.2
  generalize hp : leBytes 4 82 ++ leBytes 4 1 ++ (init.initiatorGuid.val ++
    (init.clientIp.toLeBytes ++ (padded 13 (utf16 init.hostname) ++ List.replicate 28 0))) = packet
  obtain ⟨hl, hd, hty, hga, hi, hr⟩ := fields_of_packet (i := 24) (j := nameOffset) hp
    (by norm_num) (by norm_num) (by rw [hg]) rfl
  rw [length_append, hn] at hl
  have hi : slice packet ipOffset (ipOffset + 4) = init.clientIp.toLeBytes := hi
  have ht : packet.drop zeroTailOffset = List.replicate 28 0 := by
    rw [show zeroTailOffset = nameOffset + 26 from rfl, ← drop_drop, hr]
    exact drop_left' hn
  have hna : slice packet nameOffset zeroTailOffset = padded 13 (utf16 init.hostname) := by
    rw [slice, hr]
    exact take_left' hn
  unfold parsePcssInit
  rw [guard_eq_ok_iff, guard_eq_ok_iff, guard_eq_ok_iff, not_not, not_not, not_not]
  refine ⟨hl, hd, hty, ?_⟩
  rw [ht, if_neg (by simp), hga, hi, hna, decodeFixedUtf16Name_padded hz hb,
    Guid.ofSlice_self, Ipv4Addr.ofLeBytes_toLeBytes]
  rfl

theorem pcssInitAckMessage_iff {ack : PcssInitAck} :
    pcssInitAckMessage ack = .ok bytes ↔
      0 ∉ utf16 ack.friendlyName ∧ (utf16 ack.friendlyName).length < 20 ∧
      leBytes 4 68 ++ leBytes 4 2 ++ (leBytes 4 ack.connectionNumber.toNat ++
        (ack.responderGuid.val ++ padded 20 (utf16 ack.friendlyName))) = bytes := by
  have hmax : (initAckLen - initAckNameOffset) / 2 - 1 = 19 := rfl
  unfold pcssInitAckMessage
  rw [guard_eq_ok_iff, guard_eq_ok_iff, Except.ok.injEq, contains_iff_mem, hmax, gt_iff_lt, not_lt,
    ← Nat.lt_succ_iff]
  rfl

/-- The acknowledgements that are accepted are those that are built. -/
theorem parsePcssInitAck_iff {ack : PcssInitAck} :
    parsePcssInitAck bytes = .ok ack ↔ pcssInitAckMessage ack = .ok bytes := by
  rw [pcssInitAckMessage_iff]
  constructor
  · intro h
    unfold parsePcssInitAck at h
    rw [guard_eq_ok_iff, guard_eq_ok_iff, guard_eq_ok_iff, not_not, not_not, not_not] at h
    obtain ⟨hl, hd, ht, h⟩ := h
    have hl : bytes.length = 68 := hl
    rcases hn : terminatedName PcssInitAckError.missingFriendlyNameTerminator .nonZeroNameTail
      .invalidFriendlyName (bytes.drop initAckNameOffset) with e | name
    · rw [hn] at h
      cases h
    · rw [hn] at h
      cases h
      have hfl : (bytes.drop initAckNameOffset).length = 2 * 20 := by
        rw [length_drop, hl]
        rfl
      obtain ⟨hf, hz, hb⟩ := (terminatedName_iff hfl).mp hn
      refine ⟨hz, hb, ?_⟩
      have hg : (slice bytes 12 28).length = 16 := length_slice (by omega)
      have hnu : leBytes 4 (UInt32.ofNat (wordAt bytes 8)).toNat = slice bytes 8 12 :=
        leBytes_wordAt (by omega)
      rw [Guid.ofSlice_val hg, hnu, ← hf]
      have hw := header_append_body (show 8 ≤ bytes.length by omega)
      rw [hd, ht, drop_eq_slice hl] at hw
      have hbo : slice bytes 12 28 ++ slice bytes initAckNameOffset 68 = slice bytes 12 68 :=
        slice_append_slice (by decide) (by decide)
      rw [drop_eq_slice hl, hbo, slice_append_slice (by decide) (by decide)]
      exact hw
  · rintro ⟨hz, hb, rfl⟩
    have hn := length_padded hb.le
    have hg := ack.responderGuid.2
    generalize hp : leBytes 4 68 ++ leBytes 4 2 ++ (leBytes 4 ack.connectionNumber.toNat ++
      (ack.responderGuid.val ++ padded 20 (utf16 ack.friendlyName))) = packet
    obtain ⟨hl, hd, ht, hnu, hga, hna⟩ := fields_of_packet (i := 12) (j := 28) hp (by norm_num)
      (by norm_num) rfl (by rw [hg])
    rw [hn] at hl
    unfold parsePcssInitAck
    rw [guard_eq_ok_iff, guard_eq_ok_iff, guard_eq_ok_iff, not_not, not_not, not_not]
    refine ⟨hl, hd, ht, ?_⟩
    rw [initAckNameOffset, hna, hga, wordAt, hnu,
      leNat_leBytes ack.connectionNumber.toNat_lt, (terminatedName_iff hn).mpr ⟨rfl, hz, hb⟩,
      Guid.ofSlice_self, UInt32.ofNat_toNat]
    rfl

theorem fixedNameField_iff {app : String} {field : List UInt8} :
    fixedNameField app name = .ok field ↔
      0 ∉ utf16 name ∧ (utf16 name).length < 27 ∧ padded 27 (utf16 name) = field := by
  have hmax : maxNameUnits = 26 := rfl
  have hz : name.toList.contains '\x00' = true ↔ 0 ∈ utf16 name := by
    rw [contains_iff_mem]
    exact Utf16.zero_mem_encode.symm
  unfold fixedNameField
  rw [guard_eq_ok_iff, Except.ok.injEq, hz, not_or, hmax, gt_iff_lt, not_lt, ← Nat.lt_succ_iff,
    and_assoc]
  rfl

variable {packet : List UInt8}

theorem parseAppInit_build {guid : List UInt8} {friendlyName : String}
    (h : buildAppInit guid friendlyName = .ok packet) :
    ∃ init, parseAppInit packet = .ok init ∧ init.initiatorGuid.val = guid ∧
      init.friendlyName = friendlyName := by
  unfold buildAppInit at h
  rw [guard_eq_ok_iff, not_not] at h
  obtain ⟨hg, h⟩ := h
  obtain ⟨field, hf, h⟩ := bind_eq_ok_iff.mp h
  obtain ⟨hz, hb, rfl⟩ := fixedNameField_iff.mp hf
  have hn := length_padded hb.le
  have hp : leBytes 4 82 ++ leBytes 4 1 ++ (guid ++ (leBytes 4 0 ++
      padded 27 (utf16 friendlyName))) = packet := by
    rw [← Except.ok.inj h]
    simp [hg, hn]
  obtain ⟨hl, hd, ht, hga, hr, hna⟩ := fields_of_packet (i := 24) (j := 28) hp (by norm_num)
    (by norm_num) (by rw [hg]) rfl
  rw [hn] at hl
  refine ⟨⟨Guid.ofSlice guid, friendlyName⟩, ?_, Guid.ofSlice_val hg, rfl⟩
  unfold parseAppInit
  rw [guard_eq_ok_iff, guard_eq_ok_iff, guard_eq_ok_iff, guard_eq_ok_iff, not_not, not_not,
    not_not, not_not, hna, hga]
  refine ⟨hl, hd.trans hl.symm, ht, hr, ?_⟩
  dsimp only
  rw [findIdx?_padded hz hb, Option.getD_some, pairs_padded, take_left, fromUtf16_utf16]

theorem buildLegacyAppInit_iff {guid : List UInt8} {clientIp : Ipv4Addr} {friendlyName : String} :
    buildLegacyAppInit guid clientIp friendlyName = .ok packet ↔
      guid.length = 16 ∧ 0 ∉ utf16 friendlyName ∧ (utf16 friendlyName).length < 27 ∧
      leBytes 4 82 ++ leBytes 4 1 ++ (guid ++ (clientIp.toLeBytes ++
        padded 27 (utf16 friendlyName))) = packet := by
  unfold buildLegacyAppInit
  rw [guard_eq_ok_iff, not_not]
  refine and_congr_right fun _ => ?_
  constructor
  · intro h
    obtain ⟨field, hf, h⟩ := bind_eq_ok_iff.mp h
    obtain ⟨hz, hb, rfl⟩ := fixedNameField_iff.mp hf
    exact ⟨hz, hb, Except.ok.inj h⟩
  · rintro ⟨hz, hb, rfl⟩
    rw [fixedNameField_iff.mpr ⟨hz, hb, rfl⟩]
    rfl

/-- The legacy requests that are accepted are those that are built. -/
theorem parseLegacyAppInit_iff {init : LegacyAppInit} :
    parseLegacyAppInit packet = .ok init ↔
      buildLegacyAppInit init.initiatorGuid.val init.clientIp init.friendlyName = .ok packet := by
  rw [buildLegacyAppInit_iff]
  constructor
  · intro h
    unfold parseLegacyAppInit at h
    rw [guard_eq_ok_iff, guard_eq_ok_iff, guard_eq_ok_iff, not_not, not_not, not_not] at h
    obtain ⟨hl, hd, ht, h⟩ := h
    have hl : packet.length = 82 := hl
    obtain ⟨name, hn, h⟩ := bind_eq_ok_iff.mp h
    cases h
    have hfl : (packet.drop 28).length = 2 * 27 := by
      rw [length_drop, hl]
    obtain ⟨hf, hz, hb⟩ := (terminatedName_iff hfl).mp hn
    have hg : (slice packet 8 24).length = 16 := length_slice (by omega)
    have hip : (slice packet 24 28).length = 4 := length_slice (by omega)
    refine ⟨(Guid.ofSlice _).2, hz, hb, ?_⟩
    rw [Guid.ofSlice_val hg, Ipv4Addr.toLeBytes_ofLeBytes hip, ← hf]
    have hw := header_append_body (show 8 ≤ packet.length by omega)
    rw [hd, ht, drop_eq_slice hl] at hw
    rw [drop_eq_slice hl, slice_append_slice (by decide) (by decide),
      slice_append_slice (by decide) (by decide)]
    exact hw
  · rintro ⟨hg, hz, hb, rfl⟩
    have hn := length_padded hb.le
    generalize hp : leBytes 4 82 ++ leBytes 4 1 ++ (init.initiatorGuid.val ++
      (init.clientIp.toLeBytes ++ padded 27 (utf16 init.friendlyName))) = packet
    obtain ⟨hl, hd, ht, hga, hi, hna⟩ := fields_of_packet (i := 24) (j := 28) hp (by norm_num)
      (by norm_num) (by rw [hg]) rfl
    rw [hn] at hl
    unfold parseLegacyAppInit
    rw [guard_eq_ok_iff, guard_eq_ok_iff, guard_eq_ok_iff, not_not, not_not, not_not]
    refine ⟨hl, hd, ht, ?_⟩
    rw [hna, hga, hi,
      (terminatedName_iff hn).mpr ⟨rfl, hz, hb⟩, Guid.ofSlice_self, Ipv4Addr.ofLeBytes_toLeBytes]
    rfl

end Ptpsim.Primitives
