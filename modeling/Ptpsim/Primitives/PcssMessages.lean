/-
# PCSS discovery and notification

A host announces itself in a discovery datagram, and the camera calls back with
a notification. Both are texts in the style of HTTP: a start line and header
lines, each ended by a line break. The parsers ignore headers they do not know,
take the last one of each key, and compare the service with the protocol of the
manifest.

A message is parsed back if its text fields fit on a header line: no line break
inside, and no white space around, which the parser would strip.
-/
import Mathlib.Data.List.TakeDrop
import Ptpsim.Config.Predicate
import Ptpsim.Primitives.InitFrames

namespace Ptpsim.Primitives

open Config List Option

/-! ### Texts -/

/-- `String::into_bytes` -/
def textBytes (text : List Char) : List UInt8 := text.flatMap String.utf8EncodeChar

/-- `std::str::from_utf8` -/
def fromUtf8 (bytes : List UInt8) : Option (List Char) :=
  (String.fromUTF8? ⟨bytes.toArray⟩).map String.toList

theorem fromUtf8_textBytes (text : List Char) : fromUtf8 (textBytes text) = some text := by
  have hb : (⟨(textBytes text).toArray⟩ : ByteArray) = (String.ofList text).toByteArray := by
    ext1
    simp [textBytes, List.utf8Encode]
  have hs : ∀ h, String.fromUTF8 (String.ofList text).toByteArray h = String.ofList text :=
    fun _ => rfl
  rw [fromUtf8, hb, String.fromUTF8?, dif_pos (String.ofList text).isValidUTF8,
    map_some, hs, String.toList_ofList]

theorem textBytes_append (xs ys : List Char) :
    textBytes (xs ++ ys) = textBytes xs ++ textBytes ys :=
  flatMap_append

variable (datagram : List UInt8) (protocol : String)

/-- `datagram.strip_suffix(&[0]).unwrap_or(datagram)` -/
def stripNul : List UInt8 :=
  if datagram.getLast? = some 0 then datagram.dropLast else datagram

/-- `split("\r\n")` -/
def splitLines : List Char → List (List Char)
  | [] => [[]]
  | '\r' :: '\n' :: rest => [] :: splitLines rest
  | c :: rest =>
    match splitLines rest with
    | [] => [[c]]
    | line :: lines => (c :: line) :: lines

/-- `split_once(':')` -/
def splitOnce (line : List Char) : Option (List Char × List Char) :=
  match line.span (· != ':') with
  | (_, []) => none
  | (key, _ :: value) => some (key, value)

/-- `key.trim().to_ascii_lowercase()` -/
def headerKey (key : List Char) : String := String.ofList ((trim key).map Char.toLower)

/-! ### Numbers and addresses -/

def decimal (n : ℕ) : List Char := Nat.toDigits 10 n

/-- The number of a text of digits, if it is below `bound`. -/
def parseDecimal (bound : ℕ) (digits : List Char) : Option ℕ :=
  if digits.isEmpty || !digits.all Char.isDigit then none
  else if Nat.ofDigitChars 10 digits 0 < bound then some (Nat.ofDigitChars 10 digits 0)
  else none

/-- `parse::<u16>`, which allows a plus sign. -/
def parsePort (text : List Char) : Option UInt16 :=
  let digits := match text with
    | '+' :: rest => rest
    | _ => text
  (parseDecimal 65536 digits).map UInt16.ofNat

/-- One number of an address: at most three digits, no zero in front. -/
def parseOctet (digits : List Char) : Option UInt8 :=
  if digits.length > 3 then none
  else if digits.head? = some '0' && digits.length > 1 then none
  else (parseDecimal 256 digits).map UInt8.ofNat

namespace Ipv4Addr

def text (ip : Ipv4Addr) : List Char :=
  ['.'].intercalate
    [decimal ip.a.toNat, decimal ip.b.toNat, decimal ip.c.toNat, decimal ip.d.toNat]

/-- `parse::<Ipv4Addr>` -/
def parse (text : List Char) : Option Ipv4Addr :=
  match text.splitOn '.' with
  | [a, b, c, d] => do
    let a ← parseOctet a
    let b ← parseOctet b
    let c ← parseOctet c
    let d ← parseOctet d
    some ⟨a, b, c, d⟩
  | _ => none

end Ipv4Addr

/-! ### The messages -/

structure PcssDiscovery where
  host : String
deriving DecidableEq

structure PcssNotify where
  cameraAddress : Ipv4Addr
  cameraName : String
  commandPort : UInt16
  service : String
deriving DecidableEq

inductive PcssMessageError where
  | invalidIpv4
  | invalidUtf8
  | wrongStartLine
  | missingField (field : String)
  | wrongProtocol
  | invalidCommandPort
deriving DecidableEq

def headerText (key : String) (value : List Char) : List Char := key.toList ++ ':' :: ' ' :: value

/-- A start line and headers, each with a line break behind it. -/
def messageText (start : String) (headers : List (String × List Char)) : List Char :=
  start.toList ++ ['\r', '\n'] ++
    headers.flatMap fun header => headerText header.1 header.2 ++ ['\r', '\n']

def discoveryMessage (host : Ipv4Addr) (protocol : String) : List UInt8 :=
  textBytes (messageText "DISCOVERY * HTTP/1.1"
    [("HOST", host.text), ("MX", ['5']), ("SERVICE", protocol.toList)] ++ ['\x00'])

def notifyMessage (cameraAddress : Ipv4Addr) (cameraName : String) (commandPort : UInt16)
    (protocol : String) : List UInt8 :=
  textBytes (messageText "NOTIFY * HTTP/1.1"
    [("DSC", cameraAddress.text), ("CAMERANAME", cameraName.toList),
      ("DSCPORT", decimal commandPort.toNat), ("MX", ['7']), ("SERVICE", protocol.toList)])

/-- What the loop over the lines of a discovery has seen. -/
structure DiscoveryFields where
  host : Option String := none
  serviceOk : Bool := false

def DiscoveryFields.read (fields : DiscoveryFields) (line : List Char) : DiscoveryFields :=
  match splitOnce line with
  | none => fields
  | some (key, value) =>
    let value := String.ofList (trim value)
    if headerKey key = "host" then { fields with host := some value }
    else if headerKey key = "service" then { fields with serviceOk := value = protocol }
    else fields

def parseDiscovery : Option PcssDiscovery := do
  let text ← fromUtf8 (stripNul datagram)
  match splitLines text with
  | [] => none
  | start :: lines =>
    if start ≠ "DISCOVERY * HTTP/1.1".toList then none
    else
      let fields := lines.foldl (DiscoveryFields.read protocol) {}
      if fields.serviceOk then fields.host.map PcssDiscovery.mk else none

/-- What the loop over the lines of a notification has seen. -/
structure NotifyFields where
  cameraAddress : Option Ipv4Addr := none
  cameraName : Option String := none
  commandPort : Option UInt16 := none
  service : Option String := none

def NotifyFields.read (fields : NotifyFields) (line : List Char) :
    Except PcssMessageError NotifyFields :=
  match splitOnce line with
  | none => .ok fields
  | some (key, value) =>
    let value := trim value
    if headerKey key = "dsc" then
      match Ipv4Addr.parse value with
      | none => .error .invalidIpv4
      | some ip => .ok { fields with cameraAddress := some ip }
    else if headerKey key = "cameraname" then
      .ok { fields with cameraName := some (String.ofList value) }
    else if headerKey key = "dscport" then
      match parsePort value with
      | none => .error .invalidCommandPort
      | some port =>
        if port = 0 then .error .invalidCommandPort
        else .ok { fields with commandPort := some port }
    else if headerKey key = "service" then
      .ok { fields with service := some (String.ofList value) }
    else .ok fields

/-- The message of what was seen; the service is looked at first. -/
def NotifyFields.finish (fields : NotifyFields) : Except PcssMessageError PcssNotify :=
  match fields.service with
  | none => .error (.missingField "SERVICE")
  | some service =>
    if service ≠ protocol then .error .wrongProtocol
    else
      match fields.cameraAddress, fields.cameraName, fields.commandPort with
      | none, _, _ => .error (.missingField "DSC")
      | some _, none, _ => .error (.missingField "CAMERANAME")
      | some _, some _, none => .error (.missingField "DSCPORT")
      | some cameraAddress, some cameraName, some commandPort =>
        .ok ⟨cameraAddress, cameraName, commandPort, service⟩

def parseNotify : Except PcssMessageError PcssNotify :=
  match fromUtf8 (stripNul datagram) with
  | none => .error .invalidUtf8
  | some text =>
    match splitLines text with
    | [] => .error .wrongStartLine
    | start :: lines =>
      if start ≠ "NOTIFY * HTTP/1.1".toList then .error .wrongStartLine
      else do
        let fields ← lines.foldlM NotifyFields.read {}
        fields.finish protocol

/-! ### Lines -/

/-- A text that a header line carries unchanged. -/
structure FitsHeader (text : List Char) : Prop where
  oneLine : ¬['\r', '\n'] <:+: text
  trimmed : trim text = text

theorem splitLines_append (rest : List Char) :
    ∀ {line : List Char}, ¬['\r', '\n'] <:+: line →
      splitLines (line ++ ['\r', '\n'] ++ rest) = line :: splitLines rest
  | [], _ => rfl
  | c :: line, h => by
    have hl := splitLines_append rest (fun hin => h (infix_cons hin))
    -- `c` does not begin a line break: the next character is in the line, or the `\r` behind it
    have hb : ∀ rest', c = '\r' → line ++ ['\r', '\n'] ++ rest = '\n' :: rest' → False := by
      rintro rest' rfl hn
      cases line with
      | nil => simp at hn
      | cons d line =>
        obtain ⟨rfl, -⟩ := List.cons.inj hn
        exact h ⟨[], line, rfl⟩
    rw [cons_append, cons_append, splitLines.eq_3 c _ hb, hl]

theorem oneLine_of_notMem {text : List Char} (h : '\r' ∉ text) : ¬['\r', '\n'] <:+: text :=
  fun hin => h (hin.subset mem_cons_self)

theorem oneLine_append {front text : List Char} (hf : '\r' ∉ front)
    (h : ¬['\r', '\n'] <:+: text) : ¬['\r', '\n'] <:+: front ++ text := by
  induction front with
  | nil => exact h
  | cons c front ih =>
    rw [mem_cons, not_or] at hf
    rw [cons_append, infix_cons_iff, cons_prefix_cons, not_or]
    exact ⟨fun hc => hf.1 hc.1, ih hf.2⟩

theorem trim_blank (text : List Char) : trim (' ' :: text) = trim text := by
  rw [trim, trim, dropWhile_cons_of_pos (by decide)]

theorem dropWhile_plain {text : List Char} (h : ∀ c ∈ text, isWhitespace c = false) :
    text.dropWhile isWhitespace = text := by
  cases text with
  | nil => rfl
  | cons c text => rw [dropWhile_cons_of_neg (by simp [h c])]

theorem fitsHeader_of_plain {text : List Char} (h : ∀ c ∈ text, isWhitespace c = false) :
    FitsHeader text where
  oneLine := oneLine_of_notMem fun hr => absurd (h '\r' hr) (by decide)
  trimmed := by
    rw [trim, dropWhile_plain h, dropWhile_plain (by simpa using h), reverse_reverse]

theorem splitLines_messageText {start : String} {headers : List (String × List Char)}
    (hs : '\r' ∉ start.toList)
    (hh : ∀ header ∈ headers, '\r' ∉ header.1.toList ∧ FitsHeader header.2) :
    splitLines (messageText start headers) =
      start.toList :: headers.map (fun header => headerText header.1 header.2) ++ [[]] := by
  rw [messageText, splitLines_append _ (oneLine_of_notMem hs), cons_append]
  congr 1
  induction headers with
  | nil => rfl
  | cons header headers ih =>
    obtain ⟨hkey, hvalue⟩ := hh header mem_cons_self
    have ht : ¬['\r', '\n'] <:+: headerText header.1 header.2 :=
      oneLine_append hkey (oneLine_append (show '\r' ∉ [':', ' '] by decide) hvalue.oneLine)
    rw [flatMap_cons, splitLines_append _ ht, map_cons, cons_append,
      ih fun header' h => hh header' (mem_cons_of_mem _ h)]

theorem splitOnce_headerText {key : String} {value : List Char} (hkey : ':' ∉ key.toList) :
    splitOnce (headerText key value) = some (key.toList, ' ' :: value) := by
  have hp : ∀ c ∈ key.toList, (c != ':') = true := by
    intro c hc
    rw [bne_iff_ne]
    rintro rfl
    exact hkey hc
  rw [splitOnce, headerText, span_eq_takeWhile_dropWhile,
    takeWhile_append_of_pos hp, dropWhile_append_of_pos hp]
  simp

/-! ### Numbers and addresses, read back -/

theorem isDigit_decimal {n : ℕ} {c : Char} (h : c ∈ decimal n) : c.isDigit = true :=
  Nat.isDigit_of_mem_toDigits (by norm_num) (by norm_num) h

theorem isWhitespace_of_isDigit {c : Char} (h : c.isDigit = true) : isWhitespace c = false := by
  have hr : 48 ≤ c.toNat ∧ c.toNat ≤ 57 := by
    simpa [Char.isDigit, UInt32.le_iff_toNat_le] using h
  simp only [isWhitespace, Bool.or_eq_false_iff, Bool.and_eq_false_iff, decide_eq_false_iff_not,
    beq_eq_false_iff_ne]
  omega

theorem parseDecimal_decimal {bound n : ℕ} (h : n < bound) :
    parseDecimal bound (decimal n) = some n := by
  have he : (decimal n).isEmpty = false := by
    rw [isEmpty_eq_false_iff]
    exact Nat.toDigits_ne_nil
  have hd : (decimal n).all Char.isDigit = true := all_eq_true.mpr fun _ => isDigit_decimal
  have hn : Nat.ofDigitChars 10 (decimal n) 0 = n :=
    Nat.ofDigitChars_toDigits (by norm_num) (by norm_num)
  rw [parseDecimal, he, hd, hn, if_neg (by simp), if_pos h]

theorem parsePort_text (port : UInt16) : parsePort (decimal port.toNat) = some port := by
  have hs : ∀ rest, decimal port.toNat ≠ '+' :: rest := by
    intro rest h
    have hp : '+' ∈ decimal port.toNat := by simp [h]
    exact absurd (isDigit_decimal hp) (by decide)
  have hn := parseDecimal_decimal port.toNat_lt
  unfold parsePort
  split
  · next rest h => exact absurd h (hs rest)
  · change (parseDecimal 65536 (decimal port.toNat)).map UInt16.ofNat = some port
    rw [hn, map_some, UInt16.ofNat_toNat]

theorem parseOctet_decimal (octet : UInt8) : parseOctet (decimal octet.toNat) = some octet := by
  have ho : ∀ n < 256, parseOctet (decimal n) = some (UInt8.ofNat n) := by decide +kernel
  rw [ho octet.toNat octet.toNat_lt, UInt8.ofNat_toNat]

theorem Ipv4Addr.parse_text (ip : Ipv4Addr) : Ipv4Addr.parse ip.text = some ip := by
  have hs : ip.text.splitOn '.' =
      [decimal ip.a.toNat, decimal ip.b.toNat, decimal ip.c.toNat, decimal ip.d.toNat] := by
    refine splitOn_intercalate '.' ?_ (by simp)
    intro part hp hdot
    have hd : '.'.isDigit = true := by
      simp only [mem_cons, not_mem_nil, or_false] at hp
      rcases hp with rfl | rfl | rfl | rfl <;> exact isDigit_decimal hdot
    exact absurd hd (by decide)
  rw [Ipv4Addr.parse, hs]
  simp only [parseOctet_decimal]
  rfl

theorem fitsHeader_decimal (n : ℕ) : FitsHeader (decimal n) :=
  fitsHeader_of_plain fun _ hc => isWhitespace_of_isDigit (isDigit_decimal hc)

theorem Ipv4Addr.fitsHeader_text (ip : Ipv4Addr) : FitsHeader ip.text := by
  refine fitsHeader_of_plain fun c hc => ?_
  have hp : c = '.' ∨ c.isDigit = true := by
    simp only [Ipv4Addr.text, List.intercalate, List.intersperse, flatten_cons,
      flatten_nil, mem_append, mem_cons, not_mem_nil, or_false] at hc
    rcases hc with hc | rfl | hc | rfl | hc | rfl | hc
    · exact .inr (isDigit_decimal hc)
    · exact .inl rfl
    · exact .inr (isDigit_decimal hc)
    · exact .inl rfl
    · exact .inr (isDigit_decimal hc)
    · exact .inl rfl
    · exact .inr (isDigit_decimal hc)
  rcases hp with rfl | hd
  · decide
  · exact isWhitespace_of_isDigit hd

/-! ### The messages, read back -/

theorem value_headerText {value : List Char} (h : FitsHeader value) : trim (' ' :: value) = value :=
  (trim_blank value).trans h.trimmed

theorem stripNul_nul (text : List Char) :
    stripNul (textBytes (text ++ ['\x00'])) = textBytes text := by
  have hl : textBytes ['\x00'] = [0] := by decide
  rw [textBytes_append, hl, stripNul, List.getLast?_concat, if_pos rfl, dropLast_concat]

theorem messageText_newline (start : String) (headers : List (String × List Char)) :
    ∃ text, messageText start headers = text ++ ['\n'] := by
  rcases headers.eq_nil_or_concat with rfl | ⟨headers, header, rfl⟩
  · exact ⟨start.toList ++ ['\r'], by simp [messageText]⟩
  · exact ⟨messageText start headers ++ headerText header.1 header.2 ++ ['\r'],
      by simp [messageText]⟩

theorem stripNul_message (start : String) (headers : List (String × List Char)) :
    stripNul (textBytes (messageText start headers)) = textBytes (messageText start headers) := by
  obtain ⟨text, ht⟩ := messageText_newline start headers
  have hl : textBytes ['\n'] = [10] := by decide
  rw [ht, textBytes_append, hl, stripNul, List.getLast?_concat, if_neg (by decide)]

theorem parseDiscovery_message (host : Ipv4Addr) {protocol : String}
    (hp : FitsHeader protocol.toList) :
    parseDiscovery (discoveryMessage host protocol) protocol = some ⟨String.ofList host.text⟩ := by
  have hmx : FitsHeader ['5'] := fitsHeader_decimal 5
  have hh : ∀ header ∈ [("HOST", host.text), ("MX", ['5']), ("SERVICE", protocol.toList)],
      '\r' ∉ header.1.toList ∧ FitsHeader header.2 := by
    simp only [forall_mem_cons]
    exact ⟨⟨by decide, host.fitsHeader_text⟩, ⟨by decide, hmx⟩, ⟨by decide, hp⟩, by simp⟩
  have hr : [headerText "HOST" host.text, headerText "MX" ['5'],
      headerText "SERVICE" protocol.toList, []].foldl (DiscoveryFields.read protocol) {} =
      { host := some (String.ofList host.text), serviceOk := true } := by
    have hk : ["HOST", "MX", "SERVICE"].map (fun key => headerKey key.toList) =
        ["host", "mx", "service"] := by decide
    simp only [map_cons, List.cons.injEq] at hk
    simp only [List.foldl, DiscoveryFields.read]
    repeat rw [splitOnce_headerText (by decide)]
    simp only [hk, value_headerText host.fitsHeader_text, value_headerText hmx, value_headerText hp]
    simp [splitOnce]
  rw [parseDiscovery, discoveryMessage, stripNul_nul, fromUtf8_textBytes, bind_eq_bind,
    bind_some, splitLines_messageText (by decide) hh]
  exact congrArg (fun fields : DiscoveryFields =>
    if fields.serviceOk then fields.host.map PcssDiscovery.mk else none) hr

theorem parseNotify_message (cameraAddress : Ipv4Addr) {cameraName protocol : String}
    {commandPort : UInt16} (hn : FitsHeader cameraName.toList) (hpo : commandPort ≠ 0)
    (hp : FitsHeader protocol.toList) :
    parseNotify (notifyMessage cameraAddress cameraName commandPort protocol) protocol =
      .ok ⟨cameraAddress, cameraName, commandPort, protocol⟩ := by
  have hd := fitsHeader_decimal commandPort.toNat
  have hs : FitsHeader ['7'] := fitsHeader_decimal 7
  have hh : ∀ header ∈ [("DSC", cameraAddress.text), ("CAMERANAME", cameraName.toList),
      ("DSCPORT", decimal commandPort.toNat), ("MX", ['7']), ("SERVICE", protocol.toList)],
      '\r' ∉ header.1.toList ∧ FitsHeader header.2 := by
    simp only [forall_mem_cons]
    exact ⟨⟨by decide, cameraAddress.fitsHeader_text⟩, ⟨by decide, hn⟩, ⟨by decide, hd⟩,
      ⟨by decide, hs⟩, ⟨by decide, hp⟩, by simp⟩
  have hr : [headerText "DSC" cameraAddress.text, headerText "CAMERANAME" cameraName.toList,
      headerText "DSCPORT" (decimal commandPort.toNat), headerText "MX" ['7'],
      headerText "SERVICE" protocol.toList, []].foldlM NotifyFields.read {} =
      .ok ⟨some cameraAddress, some cameraName, some commandPort, some protocol⟩ := by
    have hk : ["DSC", "CAMERANAME", "DSCPORT", "MX", "SERVICE"].map
        (fun key => headerKey key.toList) =
        ["dsc", "cameraname", "dscport", "mx", "service"] := by decide
    simp only [map_cons, List.cons.injEq] at hk
    simp only [List.foldlM, NotifyFields.read]
    repeat rw [splitOnce_headerText (by decide)]
    simp only [hk, value_headerText cameraAddress.fitsHeader_text, value_headerText hn,
      value_headerText hd, value_headerText hs, value_headerText hp, cameraAddress.parse_text,
      parsePort_text, if_neg hpo]
    simp [splitOnce, bind, Except.bind]
    rfl
  rw [parseNotify, notifyMessage, stripNul_message, fromUtf8_textBytes]
  dsimp only
  rw [splitLines_messageText (by decide) hh]
  exact (congrArg (· >>= NotifyFields.finish protocol) hr).trans (if_neg (by simp))

/-- **Frames and messages are parsed back.** What one of the four builders of
initialisation frames accepts is parsed into the fields it was built from, and
so is a discovery or a notification whose texts fit on a header line. The
acknowledgements and the legacy requests that are accepted are those that are
built. -/
theorem init_messages_round_trip :
    (∀ (init : PcssInit) (bytes : List UInt8),
      pcssInitMessage init = .ok bytes → parsePcssInit bytes = .ok init) ∧
    (∀ (ack : PcssInitAck) (bytes : List UInt8),
      parsePcssInitAck bytes = .ok ack ↔ pcssInitAckMessage ack = .ok bytes) ∧
    (∀ (guid : List UInt8) (friendlyName : String) (packet : List UInt8),
      buildAppInit guid friendlyName = .ok packet →
        ∃ init, parseAppInit packet = .ok init ∧ init.initiatorGuid.val = guid ∧
          init.friendlyName = friendlyName) ∧
    (∀ (guid : List UInt8) (clientIp : Ipv4Addr) (friendlyName : String) (packet : List UInt8),
      buildLegacyAppInit guid clientIp friendlyName = .ok packet →
        ∃ init, parseLegacyAppInit packet = .ok init ∧ init.initiatorGuid.val = guid ∧
          init.clientIp = clientIp ∧ init.friendlyName = friendlyName) ∧
    (∀ (init : LegacyAppInit) (packet : List UInt8), parseLegacyAppInit packet = .ok init →
      buildLegacyAppInit init.initiatorGuid.val init.clientIp init.friendlyName = .ok packet) ∧
    (∀ (host : Ipv4Addr) (protocol : String), FitsHeader protocol.toList →
      parseDiscovery (discoveryMessage host protocol) protocol = some ⟨String.ofList host.text⟩) ∧
    ∀ (cameraAddress : Ipv4Addr) (cameraName : String) (commandPort : UInt16) (protocol : String),
      FitsHeader cameraName.toList → commandPort ≠ 0 → FitsHeader protocol.toList →
        parseNotify (notifyMessage cameraAddress cameraName commandPort protocol) protocol =
          .ok ⟨cameraAddress, cameraName, commandPort, protocol⟩ := by
  refine ⟨fun init bytes => parsePcssInit_message, fun ack bytes => parsePcssInitAck_iff,
    fun guid name packet => parseAppInit_build, ?_, fun init packet => parseLegacyAppInit_iff.mp,
    fun host protocol => parseDiscovery_message host,
    fun address name port protocol hn hp => parseNotify_message address hn hp⟩
  intro guid clientIp friendlyName packet h
  have hg := (buildLegacyAppInit_iff.mp h).1
  exact ⟨⟨⟨guid, hg⟩, clientIp, friendlyName⟩, parseLegacyAppInit_iff.mpr h, rfl, rfl, rfl⟩

/-- The camera of the capture calls back. -/
theorem init_messages_round_trip_callback :
    parseNotify (notifyMessage ⟨198, 51, 100, 94⟩ "GFX100 II" 15740 "PCSS/1.0") "PCSS/1.0" =
      .ok ⟨⟨198, 51, 100, 94⟩, "GFX100 II", 15740, "PCSS/1.0"⟩ := by
  have hn : FitsHeader "GFX100 II".toList := ⟨oneLine_of_notMem (by decide), by decide⟩
  have hp : FitsHeader "PCSS/1.0".toList := ⟨oneLine_of_notMem (by decide), by decide⟩
  obtain ⟨-, -, -, -, -, -, hno⟩ := init_messages_round_trip
  exact hno ⟨198, 51, 100, 94⟩ "GFX100 II" 15740 "PCSS/1.0" hn (by decide) hp

end Ptpsim.Primitives
