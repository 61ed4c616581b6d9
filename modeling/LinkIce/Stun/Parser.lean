import LinkIce.Stun.Builder

/-! `parse_stun` and `verify_integrity`. Both loops walk the attribute area; the
model carries the bytes still to be read and the part of the declared length
that is left. -/
namespace LinkIce.Stun

namespace StunMessage

def setAttr (net : Inet) (msg : StunMessage) (kind : AttrKind) (value : Bytes) : StunMessage :=
  match kind with
  | .xorMappedAddress => { msg with xorMapped := decodeXorAddr net value msg.txnId }
  | .xorPeerAddress => { msg with xorPeer := decodeXorAddr net value msg.txnId }
  | .xorRelayedAddress => { msg with xorRelayed := decodeXorAddr net value msg.txnId }
  | .priority => if 4 ≤ value.length then { msg with priority := some (read32 value) } else msg
  | .lifetime => if 4 ≤ value.length then { msg with lifetime := some (read32 value) } else msg
  | .useCandidate => { msg with useCandidate := true }
  | .iceControlling =>
    if 8 ≤ value.length then { msg with iceControlling := some (read64 value) } else msg
  | .iceControlled =>
    if 8 ≤ value.length then { msg with iceControlled := some (read64 value) } else msg
  | .errorCode =>
    if 4 ≤ value.length then
      { msg with errorCode := some ((value.getD 2 0).toNat * 100 + (value.getD 3 0).toNat) }
    else msg
  | .username => { msg with username := some value }
  | .realm => { msg with realm := some value }
  | .nonce => { msg with nonce := some value }
  | .connectionId =>
    if 4 ≤ value.length then { msg with connectionId := some (read32 value) } else msg
  | .data => { msg with data := value }
  | .messageIntegrity => { msg with hasIntegrity := true }
  | .fingerprint => { msg with hasFingerprint := true }
  | .unknownAttributes | .channelNumber | .requestedTransport => msg

theorem setAttr_hasIntegrity {net : Inet} {msg : StunMessage} {kind : AttrKind} {value : Bytes} :
    (msg.setAttr net kind value).hasIntegrity =
      (msg.hasIntegrity || kind = .messageIntegrity) := by
  cases kind <;> simp only [setAttr] <;> (try split_ifs) <;> simp

/-- Attribute types outside the switch are skipped. -/
def setCode (net : Inet) (msg : StunMessage) (code : ℕ) (value : Bytes) : StunMessage :=
  match AttrKind.ofCode? code with
  | some k => msg.setAttr net k value
  | none => msg

end StunMessage

/-- The attribute loop of `parse_stun`. `left` is `20 + msg_len - offset` and
`rem` the datagram from `offset` on; each round uses at least four of `left`,
so `left` rounds are enough. -/
def parseLoop (net : Inet) : ℕ → ℕ → Bytes → StunMessage → StunMessage
  | 0, _, _, msg => msg
  | fuel + 1, left, rem, msg =>
    if left < 4 then msg
    else
      let attrType := read16 rem
      let attrLen := read16 (rem.drop 2)
      -- the bound is the size of the datagram, not the declared length
      if rem.length < 4 + attrLen then msg
      else
        parseLoop net fuel (left - (4 + align4 attrLen)) (rem.drop (4 + align4 attrLen))
          (msg.setCode net attrType ((rem.drop 4).take attrLen))

def parseStun (net : Inet) (d : Bytes) : Option StunMessage :=
  if d.length < 20 then none
  else if read32 (d.drop 4) ≠ magicCookie then none
  else
    let msgLen := read16 (d.drop 2)
    if d.length < 20 + msgLen then none
    else
      some (parseLoop net msgLen msgLen (d.drop 20)
        { msgType := read16 d, txnId := Block.ofBytes 12 (d.drop 8) })

/-- The search loop of `verify_integrity`: the offset of the first
MESSAGE-INTEGRITY attribute, counted from the end of the header. -/
def findIntegrity : ℕ → ℕ → Bytes → Option ℕ
  | 0, _, _ => none
  | fuel + 1, left, rem =>
    if left < 4 then none
    else if read16 rem = AttrKind.messageIntegrity.code then some 0
    else
      let size := 4 + align4 (read16 (rem.drop 2))
      (findIntegrity fuel (left - size) (rem.drop size)).map (size + ·)

def integrityOffset (raw : Bytes) : Option ℕ :=
  let msgLen := read16 (raw.drop 2)
  findIntegrity msgLen msgLen (raw.drop 20)

/-- What the HMAC is computed over when MESSAGE-INTEGRITY starts `off` bytes after
the header: the header with its length rewritten, then the attributes before it. -/
def coveredMessage (raw : Bytes) (off : ℕ) : Bytes :=
  raw.take 2 ++ be16 (off + 24) ++ (raw.drop 4).take 16 ++ (raw.drop 20).take off

/-- The stored digest is read without a bounds check in the source; a message that
ends inside it does not verify here. -/
def verifyIntegrity (H : Hmac) (raw key : Bytes) : Bool :=
  if raw.length < 44 then false
  else
    match integrityOffset raw with
    | none => false
    | some off => (H key (coveredMessage raw off)).1 == (raw.drop (20 + off + 4)).take 20

end LinkIce.Stun
