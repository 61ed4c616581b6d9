import LinkIce.Stun.Message

/-! The message builder. A builder is the list of its `add_*` calls; `build`
lays the bytes out. HMAC-SHA1 is a parameter. -/
namespace LinkIce.Stun

abbrev Hmac := Bytes → Bytes → Block 20

def zeroHmac : Hmac := fun _ _ => Block.zero 20

inductive Attr
  | tlv (kind : AttrKind) (value : Bytes)
  | integrity (key : Bytes)
  | fingerprint
  deriving DecidableEq, Repr

structure StunBuilder where
  msgType : ℕ
  txnId : TransactionId
  attrs : List Attr := []
  deriving DecidableEq, Repr

def header (msgType len : ℕ) (txn : TransactionId) : Bytes :=
  be16 msgType ++ be16 len ++ be32 magicCookie ++ txn.1

def crcStep (crc : ℕ) : ℕ :=
  (crc >>> 1) ^^^ (if crc % 2 = 1 then 0xEDB88320 else 0)

def stunCrc32 (data : Bytes) : ℕ :=
  data.foldl (fun crc b => (List.range 8).foldl (fun c _ => crcStep c) (crc ^^^ b.toNat))
    0xFFFFFFFF ^^^ 0xFFFFFFFF

/-- `add_attr`: type, length, value, zero padding to a 4-byte boundary. -/
def addAttr (type : ℕ) (value : Bytes) : Bytes :=
  be16 type ++ be16 value.length ++ value ++
    List.replicate (align4 value.length - value.length) 0

namespace Attr

def kind : Attr → AttrKind
  | tlv k _ => k
  | integrity _ => .messageIntegrity
  | fingerprint => .fingerprint

/-- The value an `add_*` call writes when `acc` holds the attributes before it. -/
def value (H : Hmac) (b : StunBuilder) (acc : Bytes) : Attr → Bytes
  | tlv _ v => v
  | integrity key => (H key (header b.msgType (acc.length + 24) b.txnId ++ acc)).1
  | fingerprint =>
    be32 (stunCrc32 (header b.msgType (acc.length + 8) b.txnId ++ acc) ^^^ 0x5354554E)

def encode (H : Hmac) (b : StunBuilder) (acc : Bytes) (a : Attr) : Bytes :=
  addAttr a.kind.code (a.value H b acc)

def valueLength : Attr → ℕ
  | tlv _ v => v.length
  | integrity _ => 20
  | fingerprint => 4

end Attr

namespace StunBuilder

def encodeFrom (H : Hmac) (b : StunBuilder) (acc : Bytes) (as : List Attr) : Bytes :=
  as.foldl (fun acc a => acc ++ a.encode H b acc) acc

def attrBytes (H : Hmac) (b : StunBuilder) : Bytes := b.encodeFrom H [] b.attrs

def build (H : Hmac) (b : StunBuilder) : Bytes :=
  header b.msgType (b.attrBytes H).length b.txnId ++ b.attrBytes H

/-- `attrs_.size()` of the source. -/
def attrsSize (b : StunBuilder) : ℕ :=
  (b.attrs.map fun a => 4 + align4 a.valueLength).sum

def add (b : StunBuilder) (a : Attr) : StunBuilder := { b with attrs := b.attrs ++ [a] }

def addUsername (b : StunBuilder) (u : Bytes) : StunBuilder := b.add (.tlv .username u)
def addPriority (b : StunBuilder) (p : ℕ) : StunBuilder := b.add (.tlv .priority (be32 p))
def addUseCandidate (b : StunBuilder) : StunBuilder := b.add (.tlv .useCandidate [])
def addIceControlling (b : StunBuilder) (tb : ℕ) : StunBuilder :=
  b.add (.tlv .iceControlling (be64 tb))
def addIceControlled (b : StunBuilder) (tb : ℕ) : StunBuilder :=
  b.add (.tlv .iceControlled (be64 tb))
def addErrorCode (b : StunBuilder) (code : ℕ) (reason : Bytes) : StunBuilder :=
  b.add (.tlv .errorCode ([0, 0, UInt8.ofNat (code / 100), UInt8.ofNat (code % 100)] ++ reason))
def addXorPeerAddress (net : Inet) (b : StunBuilder) (ip : Bytes) (port : ℕ) : StunBuilder :=
  b.add (.tlv .xorPeerAddress (encodeXorAddr net ip port b.txnId))
def addData (b : StunBuilder) (d : Bytes) : StunBuilder := b.add (.tlv .data d)
def addChannelNumber (b : StunBuilder) (c : ℕ) : StunBuilder :=
  b.add (.tlv .channelNumber (be16 c ++ [0, 0]))
def addRequestedTransport (b : StunBuilder) (p : ℕ) : StunBuilder :=
  b.add (.tlv .requestedTransport [UInt8.ofNat p, 0, 0, 0])
def addLifetime (b : StunBuilder) (s : ℕ) : StunBuilder := b.add (.tlv .lifetime (be32 s))
def addRealm (b : StunBuilder) (r : Bytes) : StunBuilder := b.add (.tlv .realm r)
def addNonce (b : StunBuilder) (n : Bytes) : StunBuilder := b.add (.tlv .nonce n)
def addConnectionId (b : StunBuilder) (id : ℕ) : StunBuilder :=
  b.add (.tlv .connectionId (be32 id))
def addIntegrity (b : StunBuilder) (key : Bytes) : StunBuilder := b.add (.integrity key)
def addFingerprint (b : StunBuilder) : StunBuilder := b.add .fingerprint

/-- UNKNOWN-ATTRIBUTES filler that brings the message so far to `target` bytes,
rounded down to a multiple of four. -/
def addPaddingTo (b : StunBuilder) (target : ℕ) : StunBuilder :=
  let cur := 20 + b.attrsSize
  let aligned := target / 4 * 4
  if target ≤ cur ∨ target - cur < 4 ∨ aligned ≤ cur ∨ 0xFFFF < aligned - cur - 4 then b
  else b.add (.tlv .unknownAttributes (List.replicate (aligned - cur - 4) 0))

end StunBuilder

end LinkIce.Stun
