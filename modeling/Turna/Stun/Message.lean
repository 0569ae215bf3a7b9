import Turna.Crypto.Nonce
import Turna.Net.Addr

/-! # STUN messages and ChannelData frames

A buffer is given by its length; an encoder returns the bytes that it wrote.
-/

namespace Turna.Stun
open Lib Net Crypto

def headerSize : Nat := 20

def magicCookie : UInt32 := 0x2112A442

def maxMessageLen : UInt16 := 4096

abbrev TransactionId := List.Vector UInt8 12

inductive Method where
  | binding
  | allocate
  | refresh
  | send
  | data
  | createPermission
  | channelBind
  | connect
  | connectionBind
  | connectionAttempt
  deriving DecidableEq, Repr

def Method.fromRaw (raw : UInt16) : Option Method :=
  match raw with
  | 0x0001 => some .binding
  | 0x0003 => some .allocate
  | 0x0004 => some .refresh
  | 0x0006 => some .send
  | 0x0007 => some .data
  | 0x0008 => some .createPermission
  | 0x0009 => some .channelBind
  | 0x000A => some .connect
  | 0x000B => some .connectionBind
  | 0x000C => some .connectionAttempt
  | _ => none

def Method.asU16 : Method → UInt16
  | .binding => 0x0001
  | .allocate => 0x0003
  | .refresh => 0x0004
  | .send => 0x0006
  | .data => 0x0007
  | .createPermission => 0x0008
  | .channelBind => 0x0009
  | .connect => 0x000A
  | .connectionBind => 0x000B
  | .connectionAttempt => 0x000C

inductive MessageClass where
  | request
  | indication
  | successResponse
  | errorResponse
  deriving DecidableEq, Repr

def MessageClass.fromRaw (raw : UInt16) : MessageClass :=
  let c0 := raw >>> 4 &&& 0x1
  let c1 := raw >>> 8 &&& 0x1
  if c1 = 0 then (if c0 = 0 then .request else .indication)
  else (if c0 = 0 then .successResponse else .errorResponse)

def MessageClass.bits : MessageClass → UInt16 × UInt16
  | .request => (0, 0)
  | .indication => (0, 1)
  | .successResponse => (1, 0)
  | .errorResponse => (1, 1)

def encodeMessageType (method : Method) (cls : MessageClass) : UInt16 :=
  let m := method.asU16
  let (c1, c0) := cls.bits
  let low := m &&& 0x000F
  let mid := m >>> 4 &&& 0x0007
  let high := m >>> 7 &&& 0x001F
  low ||| c0 <<< 4 ||| mid <<< 5 ||| c1 <<< 8 ||| high <<< 9

def extractMethod (msgType : UInt16) : UInt16 :=
  let low := msgType &&& 0x000F
  let mid := msgType >>> 5 &&& 0x0007
  let high := msgType >>> 9 &&& 0x001F
  low ||| mid <<< 4 ||| high <<< 7

inductive StunError where
  | bufferTooShort (need room : Nat)
  | invalidMagicCookie
  | invalidLength
  | attributeParse (message : String)
  | attributeValueTooLong (attrType : UInt16) (len max : Nat)
  | tooManyAttributes (count max : Nat)
  | messageTooLong (len max : UInt16)
  | invalidMessageType (msgType : UInt16)
  | unknownMethod (method : UInt16)
  deriving DecidableEq, Repr

def ensure (room need : Nat) : Except StunError Unit :=
  if room < need then .error (.bufferTooShort need room) else .ok ()

theorem ensure_ok {room need : Nat} (h : need ≤ room) : ensure room need = .ok () := if_neg (Nat.not_lt.mpr h)

structure MessageHeader where
  cls : MessageClass
  method : Method
  length : UInt16
  transactionId : TransactionId
  deriving DecidableEq

def MessageHeader.decode (buf : Bytes) : Except StunError MessageHeader :=
  if buf.length < headerSize then .error (.bufferTooShort headerSize buf.length)
  else
    let msgType := buf.uint16At 0
    let length := buf.uint16At 2
    if buf.uint32At 4 ≠ magicCookie then .error .invalidMagicCookie
    else if msgType &&& 0xC000 ≠ 0 then .error (.invalidMessageType msgType)
    else if length % 4 ≠ 0 then .error .invalidLength
    else if maxMessageLen < length then .error (.messageTooLong length maxMessageLen)
    else
      match Method.fromRaw (extractMethod msgType) with
      | none => .error (.unknownMethod (extractMethod msgType))
      | some method =>
        .ok
          { cls := .fromRaw msgType
            method
            length
            transactionId := buf.arrayAt 8 12 }

def headerBytes (method : Method) (cls : MessageClass) (length : UInt16) (transactionId : TransactionId) : Bytes :=
  Bytes.ofUInt16 (encodeMessageType method cls) ++ Bytes.ofUInt16 length ++ Bytes.ofUInt32 magicCookie ++
    transactionId.toList

@[simp] theorem length_headerBytes (method : Method) (cls : MessageClass) (length : UInt16)
    (transactionId : TransactionId) : (headerBytes method cls length transactionId).length = headerSize := by
  simp [headerBytes, headerSize]

/-! ## STUN and TURN attributes -/

/-! ## Attribute types -/

def attrMappedAddress : UInt16 := 0x0001
def attrChangeRequest : UInt16 := 0x0003
def attrUsername : UInt16 := 0x0006
def attrMessageIntegrity : UInt16 := 0x0008
def attrErrorCode : UInt16 := 0x0009
def attrUnknownAttributes : UInt16 := 0x000A
def attrChannelNumber : UInt16 := 0x000C
def attrLifetime : UInt16 := 0x000D
def attrXorPeerAddress : UInt16 := 0x0012
def attrData : UInt16 := 0x0013
def attrRealm : UInt16 := 0x0014
def attrNonce : UInt16 := 0x0015
def attrXorRelayedAddress : UInt16 := 0x0016
def attrRequestedAddressFamily : UInt16 := 0x0017
def attrEvenPort : UInt16 := 0x0018
def attrRequestedTransport : UInt16 := 0x0019
def attrDontFragment : UInt16 := 0x001A
def attrAccessToken : UInt16 := 0x001B
def attrMessageIntegritySha256 : UInt16 := 0x001C
def attrPasswordAlgorithm : UInt16 := 0x001D
def attrUserhash : UInt16 := 0x001E
def attrXorMappedAddress : UInt16 := 0x0020
def attrReservationToken : UInt16 := 0x0022
def attrConnectionId : UInt16 := 0x002A
def attrPasswordAlgorithms : UInt16 := 0x8002
def attrSoftware : UInt16 := 0x8022
def attrAlternateServer : UInt16 := 0x8023
def attrFingerprint : UInt16 := 0x8028
def attrResponseOrigin : UInt16 := 0x802B
def attrOtherAddress : UInt16 := 0x802C
def attrThirdPartyAuthorization : UInt16 := 0x802E
def attrOrigin : UInt16 := 0x802F
def attrMobilityTicket : UInt16 := 0x8030

def passwordAlgorithmMd5 : UInt16 := 0x0001
def passwordAlgorithmSha256 : UInt16 := 0x0002

def maxAttributeValueLen : Nat := 1500

def maxAttributesPerMessage : Nat := 32

inductive AddressFamily where
  | ipv4
  | ipv6
  deriving DecidableEq, Repr

inductive Attribute where
  | mappedAddress (addr : SocketAddr)
  | alternateServer (addr : SocketAddr)
  | xorMappedAddress (addr : SocketAddr)
  | username (name : String)
  | userHash (hash : List.Vector UInt8 32)
  | messageIntegrity (hmac : List.Vector UInt8 20)
  | fingerprint (crc : UInt32)
  | errorCode (code : UInt16) (reason : String)
  | realm (text : String)
  | nonce (text : String)
  | software (name : String)
  | lifetime (secs : UInt32)
  | connectionId (id : UInt32)
  | requestedTransport (proto : UInt8)
  | xorPeerAddress (addr : SocketAddr)
  | xorRelayedAddress (addr : SocketAddr)
  | channelNumber (channel : UInt16)
  | data (bytes : Bytes)
  | dontFragment
  | evenPort (reserve : Bool)
  | reservationToken (token : List.Vector UInt8 8)
  | requestedAddressFamily (family : AddressFamily)
  | changeRequest (changeIp changePort : Bool)
  | responseOrigin (addr : SocketAddr)
  | otherAddress (addr : SocketAddr)
  | mobilityTicket (ticket : Bytes)
  | origin (text : String)
  | accessToken (token : Bytes)
  | thirdPartyAuthorization (identity : Bytes)
  | unknownAttributes (types : List UInt16)
  | unknown (attrType : UInt16) (value : Bytes)
  deriving DecidableEq

def Attribute.attrType : Attribute → UInt16
  | .mappedAddress _ => attrMappedAddress
  | .alternateServer _ => attrAlternateServer
  | .xorMappedAddress _ => attrXorMappedAddress
  | .username _ => attrUsername
  | .userHash _ => attrUserhash
  | .messageIntegrity _ => attrMessageIntegrity
  | .fingerprint _ => attrFingerprint
  | .errorCode _ _ => attrErrorCode
  | .realm _ => attrRealm
  | .nonce _ => attrNonce
  | .software _ => attrSoftware
  | .lifetime _ => attrLifetime
  | .connectionId _ => attrConnectionId
  | .requestedTransport _ => attrRequestedTransport
  | .xorPeerAddress _ => attrXorPeerAddress
  | .xorRelayedAddress _ => attrXorRelayedAddress
  | .channelNumber _ => attrChannelNumber
  | .data _ => attrData
  | .dontFragment => attrDontFragment
  | .evenPort _ => attrEvenPort
  | .reservationToken _ => attrReservationToken
  | .requestedAddressFamily _ => attrRequestedAddressFamily
  | .changeRequest _ _ => attrChangeRequest
  | .responseOrigin _ => attrResponseOrigin
  | .otherAddress _ => attrOtherAddress
  | .mobilityTicket _ => attrMobilityTicket
  | .origin _ => attrOrigin
  | .accessToken _ => attrAccessToken
  | .thirdPartyAuthorization _ => attrThirdPartyAuthorization
  | .unknownAttributes _ => attrUnknownAttributes
  | .unknown attrType _ => attrType

/-! ## Addresses -/

def cookieBytes : Bytes := Bytes.ofUInt32 magicCookie

def portMask : UInt16 := 0x2112

def ipv6Octets (ip : Ipv6Addr) : Bytes := ip.segments.flatMap Bytes.ofUInt16

def ipv4OfOctets (b : Bytes) : Ipv4Addr := ⟨b.byteAt 0, b.byteAt 1, b.byteAt 2, b.byteAt 3⟩

def ipv6OfOctets (b : Bytes) : Ipv6Addr :=
  ⟨b.uint16At 0, b.uint16At 2, b.uint16At 4, b.uint16At 6, b.uint16At 8, b.uint16At 10, b.uint16At 12,
    b.uint16At 14⟩

def encodeXorAddress (addr : SocketAddr) (tid : TransactionId) : Bytes :=
  match addr with
  | .v4 ip port => [0, 0x01] ++ Bytes.ofUInt16 (port ^^^ portMask) ++ Bytes.xor ip.octets cookieBytes
  | .v6 ip port _ _ =>
    [0, 0x02] ++ Bytes.ofUInt16 (port ^^^ portMask) ++ Bytes.xor (ipv6Octets ip) (cookieBytes ++ tid.toList)

def encodeAddress (addr : SocketAddr) : Bytes :=
  match addr with
  | .v4 ip port => [0, 0x01] ++ Bytes.ofUInt16 port ++ ip.octets
  | .v6 ip port _ _ => [0, 0x02] ++ Bytes.ofUInt16 port ++ ipv6Octets ip

def decodeXorAddress (buf : Bytes) (tid : TransactionId) : Except StunError SocketAddr :=
  if buf.length < 8 then .error (.attributeParse "xor address too short")
  else
    let port := buf.uint16At 2 ^^^ portMask
    match buf.byteAt 1 with
    | 0x01 => .ok (.v4 (ipv4OfOctets (Bytes.xor (buf.slice 4 4) cookieBytes)) port)
    | 0x02 =>
      if buf.length < 20 then .error (.attributeParse "ipv6 xor address too short")
      else .ok (.v6 (ipv6OfOctets (Bytes.xor (buf.slice 4 16) (cookieBytes ++ tid.toList))) port 0 0)
    | family => .error (.attributeParse ("unknown address family: " ++ toString family.toNat))

def decodeAddress (buf : Bytes) : Except StunError SocketAddr :=
  if buf.length < 8 then .error (.attributeParse "address too short")
  else
    let port := buf.uint16At 2
    match buf.byteAt 1 with
    | 0x01 => .ok (.v4 (ipv4OfOctets (buf.slice 4 4)) port)
    | 0x02 =>
      if buf.length < 20 then .error (.attributeParse "ipv6 too short")
      else .ok (.v6 (ipv6OfOctets (buf.slice 4 16)) port 0 0)
    | family => .error (.attributeParse ("unknown family: " ++ toString family.toNat))

/-! ## Values -/

def Attribute.valueBytes (tid : TransactionId) : Attribute → Bytes
  | .xorMappedAddress addr => encodeXorAddress addr tid
  | .xorPeerAddress addr => encodeXorAddress addr tid
  | .xorRelayedAddress addr => encodeXorAddress addr tid
  | .mappedAddress addr => encodeAddress addr
  | .alternateServer addr => encodeAddress addr
  | .responseOrigin addr => encodeAddress addr
  | .otherAddress addr => encodeAddress addr
  | .userHash hash => hash.toList
  | .changeRequest changeIp changePort =>
    [0, 0, 0, (if changeIp then 0x04 else 0) ||| (if changePort then 0x02 else 0)]
  | .username name => Utf8.encode name
  | .realm text => Utf8.encode text
  | .nonce text => Utf8.encode text
  | .software name => Utf8.encode name
  | .messageIntegrity hmac => hmac.toList
  | .fingerprint crc => Bytes.ofUInt32 crc
  | .errorCode code reason => [0, 0, (code / 100).toUInt8, (code % 100).toUInt8] ++ Utf8.encode reason
  | .lifetime secs => Bytes.ofUInt32 secs
  | .connectionId id => Bytes.ofUInt32 id
  | .requestedTransport proto => [proto, 0, 0, 0]
  | .channelNumber channel => Bytes.ofUInt16 channel ++ [0, 0]
  | .data bytes => bytes
  | .dontFragment => []
  | .evenPort reserve => [if reserve then 0x80 else 0x00]
  | .reservationToken token => token.toList
  | .requestedAddressFamily .ipv4 => [0x01, 0, 0, 0]
  | .requestedAddressFamily .ipv6 => [0x02, 0, 0, 0]
  | .mobilityTicket ticket => ticket
  | .origin text => Utf8.encode text
  | .accessToken token => token
  | .thirdPartyAuthorization identity => identity
  | .unknownAttributes types => types.flatMap Bytes.ofUInt16
  | .unknown _ value => value

def Attribute.encodeValue (attr : Attribute) (room : Nat) (tid : TransactionId) : Except StunError Bytes := do
  ensure room (attr.valueBytes tid).length
  return attr.valueBytes tid

def exactly {α : Type} (name expected : String) (n : Nat) (value : Bytes) (a : α) : Except StunError α :=
  if value.length ≠ n then
    .error (.attributeParse (name ++ " must be " ++ expected ++ ", got " ++ toString value.length))
  else .ok a

def uint16List : Bytes → List UInt16
  | hi :: lo :: rest => Bytes.uint16At [hi, lo] 0 :: uint16List rest
  | _ => []

def parseValue (attrType : UInt16) (value : Bytes) (tid : TransactionId) : Except StunError Attribute :=
  if attrType = attrMappedAddress then .mappedAddress <$> decodeAddress value
  else if attrType = attrAlternateServer then .alternateServer <$> decodeAddress value
  else if attrType = attrXorMappedAddress then .xorMappedAddress <$> decodeXorAddress value tid
  else if attrType = attrUsername then
    match Utf8.decode? value with
    | some name => .ok (.username name)
    | none => .error (.attributeParse "USERNAME is not valid UTF-8")
  -- The next four keep a malformed value as an unknown attribute.
  else if attrType = attrUserhash then
    .ok (if value.length = 32 then .userHash (value.arrayAt 0 32) else .unknown attrType value)
  else if attrType = attrChangeRequest then
    .ok (if value.length = 4 then .changeRequest (value.byteAt 3 &&& 0x04 != 0) (value.byteAt 3 &&& 0x02 != 0)
      else .unknown attrType value)
  else if attrType = attrResponseOrigin then
    match decodeAddress value with
    | .ok addr => .ok (.responseOrigin addr)
    | .error _ => .ok (.unknown attrType value)
  else if attrType = attrOtherAddress then
    match decodeAddress value with
    | .ok addr => .ok (.otherAddress addr)
    | .error _ => .ok (.unknown attrType value)
  else if attrType = attrMessageIntegrity then
    exactly "MESSAGE-INTEGRITY" "20 bytes" 20 value (.messageIntegrity (value.arrayAt 0 20))
  else if attrType = attrFingerprint then
    exactly "FINGERPRINT" "4 bytes" 4 value (.fingerprint (value.uint32At 0))
  else if attrType = attrErrorCode then
    if value.length < 4 then
      .error (.attributeParse ("ERROR-CODE must be at least 4 bytes, got " ++ toString value.length))
    else
      .ok (.errorCode ((value.byteAt 2).toUInt16 * 100 + (value.byteAt 3).toUInt16) (Utf8.lossy (value.drop 4)))
  else if attrType = attrRealm then
    match Utf8.decode? value with
    | some text => .ok (.realm text)
    | none => .error (.attributeParse "REALM is not valid UTF-8")
  else if attrType = attrNonce then .ok (.nonce (Utf8.lossy value))
  else if attrType = attrSoftware then .ok (.software (Utf8.lossy value))
  else if attrType = attrLifetime then
    exactly "LIFETIME" "4 bytes" 4 value (.lifetime (value.uint32At 0))
  else if attrType = attrConnectionId then
    exactly "CONNECTION-ID" "4 bytes" 4 value (.connectionId (value.uint32At 0))
  else if attrType = attrRequestedTransport then
    exactly "REQUESTED-TRANSPORT" "4 bytes" 4 value (.requestedTransport (value.byteAt 0))
  else if attrType = attrXorPeerAddress then .xorPeerAddress <$> decodeXorAddress value tid
  else if attrType = attrXorRelayedAddress then .xorRelayedAddress <$> decodeXorAddress value tid
  else if attrType = attrChannelNumber then
    exactly "CHANNEL-NUMBER" "4 bytes" 4 value (.channelNumber (value.uint16At 0))
  else if attrType = attrData then .ok (.data value)
  else if attrType = attrDontFragment then exactly "DONT-FRAGMENT" "empty" 0 value .dontFragment
  else if attrType = attrEvenPort then do
    exactly "EVEN-PORT" "1 byte" 1 value ()
    if value.byteAt 0 &&& 0x7F ≠ 0 then .error (.attributeParse "EVEN-PORT reserved bits must be zero")
    else .ok (.evenPort (value.byteAt 0 &&& 0x80 != 0))
  else if attrType = attrReservationToken then
    exactly "RESERVATION-TOKEN" "8 bytes" 8 value (.reservationToken (value.arrayAt 0 8))
  else if attrType = attrRequestedAddressFamily then do
    exactly "REQUESTED-ADDRESS-FAMILY" "4 bytes" 4 value ()
    match value.byteAt 0 with
    | 0x01 => .ok (.requestedAddressFamily .ipv4)
    | 0x02 => .ok (.requestedAddressFamily .ipv6)
    | other =>
      .error (.attributeParse ("REQUESTED-ADDRESS-FAMILY unknown family 0x" ++
        String.ofList (Text.padded 16 2 other.toNat)))
  else if attrType = attrMobilityTicket then .ok (.mobilityTicket value)
  else if attrType = attrOrigin then .ok (.origin (Utf8.lossy value))
  else if attrType = attrAccessToken then .ok (.accessToken value)
  else if attrType = attrThirdPartyAuthorization then .ok (.thirdPartyAuthorization value)
  else if attrType = attrUnknownAttributes then .ok (.unknownAttributes (uint16List value))
  else .ok (.unknown attrType value)

/-! ## The attribute part

`slots` is how many attributes may still come.
-/

def parseAttributesFrom (buf : Bytes) (tid : TransactionId) (slots : Nat) (attrs : List Attribute) (start : Nat) :
    Except StunError (List Attribute) :=
  if start + 4 ≤ buf.length then
    let attrType := buf.uint16At start
    let attrLen := (buf.uint16At (start + 2)).toNat
    let pos := start + 4
    if maxAttributeValueLen < attrLen then .error (.attributeValueTooLong attrType attrLen maxAttributeValueLen)
    else if buf.length < pos + attrLen then .error (.bufferTooShort (pos + attrLen) buf.length)
    else
      match slots with
      | 0 => .error (.tooManyAttributes (attrs.length + 1) maxAttributesPerMessage)
      | slots + 1 =>
        match parseValue attrType (buf.slice pos attrLen) tid with
        | .error e => .error e
        | .ok attr =>
          if buf.length < pos + Bytes.padded attrLen then
            .error (.bufferTooShort (pos + Bytes.padded attrLen) buf.length)
          else parseAttributesFrom buf tid slots (attrs ++ [attr]) (pos + Bytes.padded attrLen)
  else .ok attrs

def parseAttributes (buf : Bytes) (tid : TransactionId) : Except StunError (List Attribute) :=
  if buf.length % 4 ≠ 0 then .error .invalidLength
  else parseAttributesFrom buf tid maxAttributesPerMessage [] 0

/-! ## STUN messages and ChannelData frames -/

structure StunMessage where
  cls : MessageClass
  method : Method
  transactionId : TransactionId
  attributes : List Attribute
  deriving DecidableEq

namespace StunMessage

def withTransactionId (method : Method) (cls : MessageClass) (tid : TransactionId) : StunMessage :=
  { cls, method, transactionId := tid, attributes := [] }

variable (msg : StunMessage)

def add (attr : Attribute) : StunMessage := { msg with attributes := msg.attributes ++ [attr] }

/-! ## Reading attributes -/

def getUsername : Option String := msg.attributes.findSome? fun
  | .username name => some name
  | _ => none

def getUserhash : Option (List.Vector UInt8 32) := msg.attributes.findSome? fun
  | .userHash hash => some hash
  | _ => none

def hasUserIdentity : Bool := msg.attributes.any fun
  | .username _ => true
  | .userHash _ => true
  | _ => false

def getRealm : Option String := msg.attributes.findSome? fun
  | .realm text => some text
  | _ => none

def getNonce : Option String := msg.attributes.findSome? fun
  | .nonce text => some text
  | _ => none

def getLifetime : Option UInt32 := msg.attributes.findSome? fun
  | .lifetime secs => some secs
  | _ => none

def getRequestedTransport : Option UInt8 := msg.attributes.findSome? fun
  | .requestedTransport proto => some proto
  | _ => none

def getXorPeerAddress : Option SocketAddr := msg.attributes.findSome? fun
  | .xorPeerAddress addr => some addr
  | _ => none

def getChannelNumber : Option UInt16 := msg.attributes.findSome? fun
  | .channelNumber channel => some channel
  | _ => none

def getData : Option Bytes := msg.attributes.findSome? fun
  | .data bytes => some bytes
  | _ => none

def getMobilityTicket : Option Bytes := msg.attributes.findSome? fun
  | .mobilityTicket ticket => some ticket
  | _ => none

def hasMobilityTicket : Bool := msg.attributes.any fun
  | .mobilityTicket _ => true
  | _ => false

def getAccessToken : Option Bytes := msg.attributes.findSome? fun
  | .accessToken token => some token
  | _ => none

def getEvenPort : Option Bool := msg.attributes.findSome? fun
  | .evenPort reserve => some reserve
  | _ => none

def getReservationToken : Option (List.Vector UInt8 8) := msg.attributes.findSome? fun
  | .reservationToken token => some token
  | _ => none

def getRequestedAddressFamily : Option AddressFamily := msg.attributes.findSome? fun
  | .requestedAddressFamily family => some family
  | _ => none

def hasDontFragment : Bool := msg.attributes.any fun
  | .dontFragment => true
  | _ => false

def getMessageIntegrity : Option (List.Vector UInt8 20) := msg.attributes.findSome? fun
  | .messageIntegrity hmac => some hmac
  | _ => none

/-- MESSAGE-INTEGRITY-SHA256 has no typed attribute and is found by its type code. -/
def getMessageIntegritySha256 : Option Bytes := msg.attributes.findSome? fun
  | .unknown attrType value => if attrType = attrMessageIntegritySha256 then some value else none
  | _ => none

def getPasswordAlgorithm : Option UInt16 := msg.attributes.findSome? fun
  | .unknown attrType value =>
    if attrType = attrPasswordAlgorithm ∧ 2 ≤ value.length then some (value.uint16At 0) else none
  | _ => none

/-! ## Decoding and encoding -/

def decode (buf : Bytes) : Except StunError StunMessage := do
  let header ← MessageHeader.decode buf
  let total := headerSize + header.length.toNat
  if buf.length < total then .error (.bufferTooShort total buf.length)
  else
    let attributes ← parseAttributes (buf.slice headerSize header.length.toNat) header.transactionId
    return { cls := header.cls, method := header.method, transactionId := header.transactionId, attributes }

def attrScratch : Nat := 4096

/-- Type, length, value and padding of one attribute, written behind `acc`. -/
def encodeAttribute (tid : TransactionId) (acc : Bytes) (attr : Attribute) : Except StunError Bytes := do
  if attr.attrType = attrMessageIntegrity ∨ attr.attrType = attrFingerprint then return acc
  else
    ensure attrScratch (acc.length + 4)
    let value ← attr.encodeValue (attrScratch - (acc.length + 4)) tid
    let written :=
      acc ++ Bytes.ofUInt16 attr.attrType ++ Bytes.ofUInt16 (UInt16.ofNat value.length) ++ value
    ensure attrScratch (Bytes.padded written.length)
    return Bytes.pad written

def encodeAttributes (tid : TransactionId) (attrs : List Attribute) : Except StunError Bytes :=
  attrs.foldlM (encodeAttribute tid) []

def encode (room : Nat) : Except StunError Bytes := do
  let attrs ← encodeAttributes msg.transactionId msg.attributes
  ensure room (headerSize + attrs.length)
  return headerBytes msg.method msg.cls (UInt16.ofNat attrs.length) msg.transactionId ++ attrs

def withLength (buf : Bytes) (length : Nat) : Bytes :=
  buf.take 2 ++ Bytes.ofUInt16 (UInt16.ofNat length) ++ buf.drop 4

def fingerprintXor : UInt32 := 0x5354554E

def computeFingerprint (c : Primitives) (buf : Bytes) : UInt32 := c.crc32 buf ^^^ fingerprintXor

/-- Before each attribute the length field is set to what it will be with it. -/
def sign (c : Primitives) (room : Nat) (attrType : UInt16) (size : Nat) (mac : Bytes → Bytes) (buf : Bytes) :
    Except StunError Bytes := do
  ensure room (buf.length + (4 + size))
  let buf := withLength buf (buf.length - headerSize + (4 + size))
  let buf := buf ++ Bytes.ofUInt16 attrType ++ Bytes.ofUInt16 (UInt16.ofNat size) ++ mac buf
  ensure room (buf.length + 8)
  let buf := withLength buf (buf.length - headerSize + 8)
  return buf ++ Bytes.ofUInt16 attrFingerprint ++ Bytes.ofUInt16 4 ++ Bytes.ofUInt32 (computeFingerprint c buf)

def encodeWithIntegrity (c : Primitives) (room : Nat) (key : Bytes) : Except StunError Bytes := do
  let buf ← msg.encode room
  sign c room attrMessageIntegrity 20 (fun b => (c.hmacSha1 key b).toList) buf

def encodeWithIntegritySha256 (c : Primitives) (room : Nat) (key : Bytes) : Except StunError Bytes := do
  let buf ← msg.encode room
  sign c room attrMessageIntegritySha256 32 (fun b => (c.hmacSha256 key b).toList) buf

/-! ## Verification -/

/-- Whether every attribute from `pos` on is FINGERPRINT. -/
def onlyFingerprintAfter (raw : Bytes) : (fuel pos : Nat) → Bool
  | 0, _ => true
  | fuel + 1, pos =>
    if pos + 4 ≤ raw.length then
      if raw.uint16At pos ≠ attrFingerprint then false
      else onlyFingerprintAfter raw fuel (pos + 4 + Bytes.padded (raw.uint16At (pos + 2)).toNat)
    else true

def findAttribute (raw : Bytes) (attrType : UInt16) : (fuel pos : Nat) → Option (Nat × Nat)
  | 0, _ => none
  | fuel + 1, pos =>
    if pos + 4 ≤ raw.length then
      let attrLen := (raw.uint16At (pos + 2)).toNat
      if raw.uint16At pos = attrType then some (pos, attrLen)
      else findAttribute raw attrType fuel (pos + 4 + Bytes.padded attrLen)
    else none

/-- Every round moves on by at least four bytes. -/
def verifyIntegrity (c : Primitives) (raw key : Bytes) : Bool :=
  match msg.getMessageIntegrity, findAttribute raw attrMessageIntegrity raw.length headerSize with
  | some expected, some (pos, _) =>
    onlyFingerprintAfter raw raw.length (pos + 4 + 20) &&
      c.hmacSha1 key (withLength (raw.take pos) (pos - headerSize + 24)) == expected
  | _, _ => false

/-- The tag is the whole code or a left part of 16, 20, 24 or 28 bytes. -/
def verifyTag256 (c : Primitives) (key message expected : Bytes) : Bool :=
  decide (16 ≤ expected.length ∧ expected.length ≤ 32 ∧ expected.length % 4 = 0) &&
    (c.hmacSha256 key message).toList.take expected.length == expected

def verifyIntegritySha256 (c : Primitives) (raw key : Bytes) : Bool :=
  match msg.getMessageIntegritySha256, findAttribute raw attrMessageIntegritySha256 raw.length headerSize with
  | some expected, some (pos, attrLen) =>
    onlyFingerprintAfter raw raw.length (pos + 4 + Bytes.padded attrLen) &&
      verifyTag256 c key (withLength (raw.take pos) (pos - headerSize + 4 + attrLen)) expected
  | _, _ => false

end StunMessage

/-! ## Classification and ChannelData -/

def isStunMessage (buf : Bytes) : Bool :=
  decide (headerSize ≤ buf.length) && buf.byteAt 0 &&& 0xC0 == 0 && buf.uint32At 4 == magicCookie

def channelMin : UInt16 := 0x4000

def channelMax : UInt16 := 0x7FFE

def isValidChannel (ch : UInt16) : Bool := decide (channelMin ≤ ch ∧ ch ≤ channelMax)

def isChannelData (buf : Bytes) : Bool :=
  decide (4 ≤ buf.length) && isValidChannel (buf.uint16At 0) &&
    decide (4 + (buf.uint16At 2).toNat ≤ buf.length)

/-- Channel number and length of the payload, which starts at offset 4. -/
def decodeChannelData (buf : Bytes) : Except StunError (UInt16 × Nat) :=
  if buf.length < 4 then .error (.bufferTooShort 4 buf.length)
  else
    let length := (buf.uint16At 2).toNat
    if buf.length < 4 + length then .error (.bufferTooShort (4 + length) buf.length)
    else .ok (buf.uint16At 0, length)

def encodeChannelData (room : Nat) (channel : UInt16) (data : Bytes) : Except StunError Bytes := do
  ensure room (Bytes.padded (4 + data.length))
  return Bytes.pad (Bytes.ofUInt16 channel ++ Bytes.ofUInt16 (UInt16.ofNat data.length) ++ data)

end Turna.Stun
