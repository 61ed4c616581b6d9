import LinkIce.Lib.Bytes

/-! STUN vocabulary: message types, attribute types, parsed messages and the
XOR address encoding. -/
namespace LinkIce.Stun

abbrev TransactionId := Block 12

instance : LawfulBEq TransactionId := inferInstance

def bindingRequest : ℕ := 0x0001
def bindingResponse : ℕ := 0x0101
def bindingError : ℕ := 0x0111
def magicCookie : ℕ := 0x2112A442

def turnAllocateRequest : ℕ := 0x0003
def turnAllocateResponse : ℕ := 0x0103
def turnAllocateError : ℕ := 0x0113
def turnRefreshRequest : ℕ := 0x0004
def turnCreatePermRequest : ℕ := 0x0008
def turnSendIndication : ℕ := 0x0016
def turnDataIndication : ℕ := 0x0017
def turnChannelBindRequest : ℕ := 0x0009

def turnConnectRequest : ℕ := 0x000A
def turnConnectResponse : ℕ := 0x010A
def turnConnectionBindRequest : ℕ := 0x000B
def turnConnectionBindResponse : ℕ := 0x010B
def turnConnectionBindError : ℕ := 0x011B
def turnConnectionAttemptIndication : ℕ := 0x001C

/-- Attribute types that the builder writes or the parser decodes. -/
inductive AttrKind
  | username | messageIntegrity | errorCode | unknownAttributes
  | xorMappedAddress | priority | useCandidate | iceControlling | iceControlled | fingerprint
  | channelNumber | lifetime | xorPeerAddress | data | xorRelayedAddress
  | requestedTransport | realm | nonce | connectionId
  deriving DecidableEq, Repr

namespace AttrKind

def code : AttrKind → ℕ
  | username => 0x0006
  | messageIntegrity => 0x0008
  | errorCode => 0x0009
  | unknownAttributes => 0x000A
  | xorMappedAddress => 0x0020
  | priority => 0x0024
  | useCandidate => 0x0025
  | iceControlling => 0x802A
  | iceControlled => 0x8029
  | fingerprint => 0x8028
  | channelNumber => 0x000C
  | lifetime => 0x000D
  | xorPeerAddress => 0x0012
  | data => 0x0013
  | xorRelayedAddress => 0x0016
  | requestedTransport => 0x0019
  | realm => 0x0014
  | nonce => 0x0015
  | connectionId => 0x002A

def all : List AttrKind :=
  [username, messageIntegrity, errorCode, unknownAttributes, xorMappedAddress, priority,
    useCandidate, iceControlling, iceControlled, fingerprint, channelNumber, lifetime,
    xorPeerAddress, data, xorRelayedAddress, requestedTransport, realm, nonce, connectionId]

def ofCode? (c : ℕ) : Option AttrKind := all.find? fun k => k.code == c

@[simp] theorem ofCode?_code (k : AttrKind) : ofCode? k.code = some k := by
  cases k <;> decide

theorem code_lt (k : AttrKind) : k.code < 65536 := by
  cases k <;> decide

theorem code_injective {k k' : AttrKind} (h : k.code = k'.code) : k = k' := by
  have hk := congrArg ofCode? h
  rw [ofCode?_code, ofCode?_code] at hk
  exact Option.some.inj hk

theorem code_of_ofCode? {c : ℕ} {k : AttrKind} (h : ofCode? c = some k) : k.code = c := by
  simpa using List.find?_some h

end AttrKind

/-- Text conversion of addresses, provided by the C library. -/
structure Inet where
  ntop4 : Block 4 → Bytes
  ntop6 : Block 16 → Bytes
  pton4 : Bytes → Option (Block 4)
  pton6 : Bytes → Option (Block 16)

structure MappedAddress where
  ip : Bytes
  port : ℕ
  deriving DecidableEq, Repr

structure StunMessage where
  msgType : ℕ
  txnId : TransactionId
  xorMapped : Option MappedAddress := none
  xorPeer : Option MappedAddress := none
  xorRelayed : Option MappedAddress := none
  priority : Option ℕ := none
  lifetime : Option ℕ := none
  errorCode : Option ℕ := none
  username : Option Bytes := none
  realm : Option Bytes := none
  nonce : Option Bytes := none
  connectionId : Option ℕ := none
  data : Bytes := []
  useCandidate : Bool := false
  iceControlling : Option ℕ := none
  iceControlled : Option ℕ := none
  hasIntegrity : Bool := false
  hasFingerprint : Bool := false
  deriving DecidableEq, Repr

def xorBytes (a b : Bytes) : Bytes := List.zipWith (· ^^^ ·) a b

/-- The key an address is masked with: the magic cookie, then the transaction id. -/
def xorKey (txn : TransactionId) : Bytes := be32 magicCookie ++ txn.1

def encodeXorAddr (net : Inet) (ip : Bytes) (port : ℕ) (txn : TransactionId) : Bytes :=
  let xport := be16 (port ^^^ (magicCookie >>> 16))
  match net.pton4 ip with
  | some a => [0, 0x01] ++ xport ++ xorBytes a.1 (xorKey txn)
  | none =>
    match net.pton6 ip with
    | some a => [0, 0x02] ++ xport ++ xorBytes a.1 (xorKey txn)
    | none => [0]

def decodeXorAddr (net : Inet) (value : Bytes) (txn : TransactionId) : Option MappedAddress :=
  if value.length < 4 then none
  else
    let family := value.getD 1 0
    let port := read16 (value.drop 2) ^^^ (magicCookie >>> 16)
    let body := xorBytes (value.drop 4) (xorKey txn)
    if family = 0x01 ∧ 8 ≤ value.length then
      some ⟨net.ntop4 (Block.ofBytes 4 body), port⟩
    else if family = 0x02 ∧ 20 ≤ value.length then
      some ⟨net.ntop6 (Block.ofBytes 16 body), port⟩
    else none

end LinkIce.Stun
