import LinkIce.Lib.Crc
import LinkIce.Stun.AddressText
import LinkIce.Stun.RoundTrip
import Mathlib.Data.List.Induction
import Mathlib.Data.Nat.Bitwise

/-! The builder object of the source. Each call writes its attribute at once, under the
transaction id of that moment. -/
namespace LinkIce.Stun

open List

inductive BuilderCall
  | setTxnId (id : TransactionId)
  | addUsername (username : Bytes)
  | addPriority (priority : UInt32)
  | addUseCandidate
  | addIceControlling (tiebreaker : UInt64)
  | addIceControlled (tiebreaker : UInt64)
  | addXorPeerAddress (ip : Bytes) (port : UInt16)
  | addXorRelayedAddress (ip : Bytes) (port : UInt16)
  | addErrorCode (code : UInt16) (reason : Bytes)
  | addData (data : Bytes)
  | addChannelNumber (channel : UInt16)
  | addRequestedTransport (proto : UInt8)
  | addLifetime (seconds : UInt32)
  | addRealm (realm : Bytes)
  | addNonce (nonce : Bytes)
  | addConnectionId (id : UInt32)
  | addIntegrity (key : Bytes)
  | addFingerprint
  | addPaddingTo (target : ℕ)
  deriving DecidableEq

structure BuilderObject where
  msgType : UInt16
  txnId : TransactionId
  attrs : Bytes := []

namespace BuilderObject

def addAttr (kind : AttrKind) (value : Bytes) (b : BuilderObject) : BuilderObject :=
  let attrs := b.attrs ++ be16 kind.code ++ be16 value.length ++ value
  { b with attrs := attrs ++ List.replicate (align4 attrs.length - attrs.length) 0 }

/-- The message so far, under a header that announces `more` bytes. -/
def draft (more : ℕ) (b : BuilderObject) : Bytes :=
  header b.msgType.toNat (b.attrs.length + more) b.txnId ++ b.attrs

def tlv (H : Hmac) (net : Inet) (b : BuilderObject) :
    BuilderCall → Option (AttrKind × Bytes)
  | .setTxnId _ => none
  | .addUsername username => some (.username, username)
  | .addPriority priority => some (.priority, be32 priority.toNat)
  | .addUseCandidate => some (.useCandidate, [])
  | .addIceControlling tb => some (.iceControlling, be64 tb.toNat)
  | .addIceControlled tb => some (.iceControlled, be64 tb.toNat)
  | .addXorPeerAddress ip port =>
    some (.xorPeerAddress, encodeXorAddr net ip port.toNat b.txnId)
  | .addXorRelayedAddress ip port =>
    some (.xorRelayedAddress, encodeXorAddr net ip port.toNat b.txnId)
  | .addErrorCode code reason =>
    some (.errorCode,
      [0, 0, UInt8.ofNat (code.toNat / 100), UInt8.ofNat (code.toNat % 100)] ++ reason)
  | .addData data => some (.data, data)
  | .addChannelNumber channel => some (.channelNumber, be16 channel.toNat ++ [0, 0])
  | .addRequestedTransport proto => some (.requestedTransport, [proto, 0, 0, 0])
  | .addLifetime seconds => some (.lifetime, be32 seconds.toNat)
  | .addRealm realm => some (.realm, realm)
  | .addNonce nonce => some (.nonce, nonce)
  | .addConnectionId id => some (.connectionId, be32 id.toNat)
  | .addIntegrity key => some (.messageIntegrity, (H key (b.draft 24)).1)
  | .addFingerprint => some (.fingerprint, be32 (stunCrc32 (b.draft 8) ^^^ 0x5354554E))
  | .addPaddingTo target =>
    let cur := 20 + b.attrs.length
    let aligned := target / 4 * 4
    if target ≤ cur ∨ target - cur < 4 ∨ aligned ≤ cur ∨ 0xFFFF < aligned - cur - 4 then none
    else some (.unknownAttributes, List.replicate (aligned - cur - 4) 0)

def call (H : Hmac) (net : Inet) (b : BuilderObject) : BuilderCall → BuilderObject
  | .setTxnId id => { b with txnId := id }
  | c => ((b.tlv H net c).map fun a => b.addAttr a.1 a.2).getD b

def run (H : Hmac) (net : Inet) (b : BuilderObject) (cs : List BuilderCall) : BuilderObject :=
  cs.foldl (call H net) b

def build (b : BuilderObject) : Bytes := b.draft 0

end BuilderObject

theorem xorBytes_xorBytes {a k : Bytes} (h : a.length ≤ k.length) :
    xorBytes (xorBytes a k) k = a := by
  induction a generalizing k with
  | nil => rfl
  | cons x a ih =>
    cases k with
    | nil => cases h
    | cons y k =>
      have hrest : xorBytes (xorBytes a k) k = a := ih (Nat.le_of_succ_le_succ h)
      simp only [xorBytes, zipWith_cons_cons] at hrest ⊢
      rw [hrest, UInt8.xor_assoc, UInt8.xor_self, UInt8.xor_zero]

/-- The text form that the C library gives the address of a text. -/
def Inet.canonical (net : Inet) (ip : Bytes) : Bytes :=
  match net.pton4 ip with
  | some a => net.ntop4 a
  | none => ((net.pton6 ip).map net.ntop6).getD []

theorem ofBytes_xorBytes {n : ℕ} (a : Block n) {k : Bytes} (h : n ≤ k.length) :
    Block.ofBytes n (xorBytes (xorBytes a.1 k) k) = a := by
  rw [xorBytes_xorBytes (a.2.trans_le h)]
  have hself := ofBytes_append a []
  rwa [append_nil] at hself

private theorem unmask_port (port : UInt16) (rest : Bytes) :
    read16 (be16 (port.toNat ^^^ (magicCookie >>> 16)) ++ rest) ^^^ (magicCookie >>> 16) =
      port.toNat := by
  have hlt : port.toNat ^^^ (magicCookie >>> 16) < 65536 :=
    Nat.xor_lt_two_pow port.toNat_lt (show magicCookie >>> 16 < 2 ^ 16 by decide)
  rw [read16_be16, Nat.mod_eq_of_lt hlt, Nat.xor_assoc, Nat.xor_self, Nat.xor_zero]

theorem decodeXorAddr_encodeXorAddr (net : Inet) {ip : Bytes} (port : UInt16)
    (txn : TransactionId) (h : (net.pton4 ip).isSome = true ∨ (net.pton6 ip).isSome = true) :
    decodeXorAddr net (encodeXorAddr net ip port.toNat txn) txn =
      some ⟨net.canonical ip, port.toNat⟩ := by
  have hkey : (xorKey txn).length = 16 := by simp [xorKey, txn.2]
  unfold encodeXorAddr Inet.canonical
  cases h4 : net.pton4 ip with
  | some a =>
    have hlen : (xorBytes a.1 (xorKey txn)).length = 4 := by simp [xorBytes, a.2, hkey]
    have hblock := ofBytes_xorBytes a (k := xorKey txn) (by omega)
    have hport := unmask_port port (xorBytes a.1 (xorKey txn))
    unfold decodeXorAddr
    simp only [length_append, hlen]
    simp [hport]
    exact congrArg net.ntop4 hblock
  | none =>
    obtain ⟨a, ha⟩ := Option.isSome_iff_exists.mp (h.resolve_left (by simp [h4]))
    have hlen : (xorBytes a.1 (xorKey txn)).length = 16 := by simp [xorBytes, a.2, hkey]
    have hblock := ofBytes_xorBytes a (k := xorKey txn) (by omega)
    have hport := unmask_port port (xorBytes a.1 (xorKey txn))
    unfold decodeXorAddr
    simp [ha, hlen, hport]
    exact congrArg net.ntop6 hblock

def tlvBytes (as : List (AttrKind × Bytes)) : Bytes := as.flatMap fun a => addAttr a.1.code a.2

/-- A builder that has exactly these attributes to write. -/
def StunBuilder.ofTlvs (msgType : UInt16) (txn : TransactionId) (as : List (AttrKind × Bytes)) :
    StunBuilder := ⟨msgType.toNat, txn, as.map fun a => .tlv a.1 a.2⟩

namespace BuilderObject

variable (H : Hmac) (net : Inet) {b : BuilderObject} {cs : List BuilderCall} {c : BuilderCall}
  {as : List (AttrKind × Bytes)}

/-! ### What the calls write -/

theorem addAttr_attrs (hb : b.attrs.length % 4 = 0) {kind : AttrKind} {value : Bytes} :
    (b.addAttr kind value).attrs = b.attrs ++ Stun.addAttr kind.code value := by
  have hpad : align4 (b.attrs ++ be16 kind.code ++ be16 value.length ++ value).length -
      (b.attrs ++ be16 kind.code ++ be16 value.length ++ value).length =
        align4 value.length - value.length := by
    simp only [length_append, length_be16, align4]
    omega
  simp only [addAttr, hpad]
  simp only [Stun.addAttr, append_assoc]

theorem call_attrs (hb : b.attrs.length % 4 = 0) (c : BuilderCall) :
    (b.call H net c).attrs = b.attrs ++ tlvBytes (b.tlv H net c).toList := by
  have hwrite (a : Option (AttrKind × Bytes)) :
      ((a.map fun a => b.addAttr a.1 a.2).getD b).attrs = b.attrs ++ tlvBytes a.toList := by
    cases a with
    | none => simp [tlvBytes]
    | some a => simp [tlvBytes, addAttr_attrs hb]
  cases c with
  | setTxnId id => simp [call, tlv, tlvBytes]
  | _ => exact hwrite _

theorem call_aligned (hb : b.attrs.length % 4 = 0) (c : BuilderCall) :
    (b.call H net c).attrs.length % 4 = 0 := by
  rw [call_attrs H net hb, length_append]
  cases b.tlv H net c with
  | none => simpa [tlvBytes] using hb
  | some a =>
    have hsize : (tlvBytes (some a).toList).length = 4 + align4 a.2.length := by
      simp [tlvBytes, StunBuilder.length_addAttr]
    have := align4_mod a.2.length
    omega

theorem call_msgType : (b.call H net c).msgType = b.msgType := by
  have hwrite (a : Option (AttrKind × Bytes)) :
      ((a.map fun a => b.addAttr a.1 a.2).getD b).msgType = b.msgType := by
    cases a <;> rfl
  cases c with
  | setTxnId id => rfl
  | _ => exact hwrite _

theorem call_txnId (hc : ∀ id, c ≠ .setTxnId id) : (b.call H net c).txnId = b.txnId := by
  have hwrite (a : Option (AttrKind × Bytes)) :
      ((a.map fun a => b.addAttr a.1 a.2).getD b).txnId = b.txnId := by
    cases a <;> rfl
  cases c with
  | setTxnId id => exact absurd rfl (hc id)
  | _ => exact hwrite _

theorem run_concat (cs : List BuilderCall) (c : BuilderCall) :
    b.run H net (cs ++ [c]) = (b.run H net cs).call H net c := by
  simp [run]

theorem run_append (cs ds : List BuilderCall) :
    b.run H net (cs ++ ds) = (b.run H net cs).run H net ds := by
  simp [run]

theorem run_msgType (cs : List BuilderCall) : (b.run H net cs).msgType = b.msgType := by
  induction cs using List.reverseRecOn with
  | nil => rfl
  | append_singleton cs c ih => rw [run_concat, call_msgType, ih]

theorem run_txnId (h : ∀ c ∈ cs, ∀ id, c ≠ .setTxnId id) : (b.run H net cs).txnId = b.txnId := by
  induction cs using List.reverseRecOn with
  | nil => rfl
  | append_singleton cs c ih =>
    rw [run_concat, call_txnId H net (h c (by simp)), ih fun c hc => h c (by simp [hc])]

theorem run_aligned (hb : b.attrs.length % 4 = 0) (cs : List BuilderCall) :
    (b.run H net cs).attrs.length % 4 = 0 := by
  induction cs using List.reverseRecOn with
  | nil => exact hb
  | append_singleton cs c ih =>
    rw [run_concat]
    exact call_aligned H net ih c

theorem run_attrs (hb : b.attrs.length % 4 = 0) (cs : List BuilderCall) :
    ∃ as, (b.run H net cs).attrs = b.attrs ++ tlvBytes as ∧
      ∀ a ∈ as, a.1 = .messageIntegrity → ∃ key, .addIntegrity key ∈ cs := by
  induction cs using List.reverseRecOn with
  | nil => exact ⟨[], by simp [run, tlvBytes], by simp⟩
  | append_singleton cs c ih =>
    obtain ⟨as, has, hkind⟩ := ih
    refine ⟨as ++ ((b.run H net cs).tlv H net c).toList, ?_, fun a ha hi => ?_⟩
    · rw [run_concat, call_attrs H net (run_aligned H net hb cs), has]
      simp [tlvBytes]
    · rcases mem_append.mp ha with ha | ha
      · obtain ⟨key, hkey⟩ := hkind a ha hi
        exact ⟨key, by simp [hkey]⟩
      · have hc : (b.run H net cs).tlv H net c = some a := by simpa using ha
        cases c with
        | addIntegrity key => exact ⟨key, by simp⟩
        | setTxnId id => cases hc
        | addPaddingTo target =>
          simp only [tlv] at hc
          split_ifs at hc
          obtain rfl := Option.some.inj hc
          cases hi
        | _ =>
          obtain rfl := Option.some.inj hc
          cases hi

theorem tailBytes_tlvs (H : Hmac) (sb : StunBuilder) (acc : Bytes) (as : List (AttrKind × Bytes)) :
    sb.tailBytes H acc (as.map fun a => .tlv a.1 a.2) = tlvBytes as := by
  induction as generalizing acc with
  | nil => rfl
  | cons a as ih =>
    rw [map_cons, StunBuilder.tailBytes, ih]
    rfl

theorem build_eq {H : Hmac} (h : b.attrs = tlvBytes as) :
    b.build = (StunBuilder.ofTlvs b.msgType b.txnId as).build H := by
  have hbytes : (StunBuilder.ofTlvs b.msgType b.txnId as).attrBytes H = b.attrs := by
    rw [StunBuilder.attrBytes_eq, h]
    exact tailBytes_tlvs H _ [] as
  rw [build, draft, StunBuilder.build, hbytes]
  rfl

/-! ### What is signed verifies -/

theorem length_tlvBytes {msgType : UInt16} {txn : TransactionId} :
    (StunBuilder.ofTlvs msgType txn as).attrsSize = (tlvBytes as).length := by
  have hlen := StunBuilder.length_attrBytes zeroHmac
    (StunBuilder.ofTlvs msgType txn as)
  rw [← hlen, StunBuilder.attrBytes_eq]
  exact congrArg List.length (tailBytes_tlvs _ _ [] as)

/-- The digest is that of a builder which signs between the attributes before and behind. -/
theorem build_verifies {key : Bytes} {pre post : List BuilderCall} (hempty : b.attrs = [])
    (hpre : ∀ k, .addIntegrity k ∉ pre) (hpost : ∀ id, .setTxnId id ∉ post)
    (hsize : (b.run H net (pre ++ .addIntegrity key :: post)).attrs.length ≤ 65535) :
    verifyIntegrity H (b.run H net (pre ++ .addIntegrity key :: post)).build key = true := by
  have hb : b.attrs.length % 4 = 0 := by simp [hempty]
  obtain ⟨as, has, hkinds⟩ := run_attrs H net hb pre
  have halign := run_aligned H net hb pre
  rw [hempty, nil_append] at has
  rw [run_append] at hsize ⊢
  generalize b.run H net pre = p at has halign hsize
  obtain ⟨bs, hbs, -⟩ := run_attrs H net (call_aligned H net halign (.addIntegrity key)) post
  have htype := run_msgType H net (b := p.call H net (.addIntegrity key)) post
  have htxn := run_txnId H net (b := p.call H net (.addIntegrity key))
    fun c hc id he => hpost id (he ▸ hc)
  let sb : StunBuilder := ⟨p.msgType.toNat, p.txnId,
    as.map (fun a => .tlv a.1 a.2) ++ .integrity key :: bs.map fun a => .tlv a.1 a.2⟩
  have hwritten : (p.call H net (.addIntegrity key)).attrs = tlvBytes as ++
      (Attr.integrity key).encode H sb (tlvBytes as) := by
    rw [call_attrs H net halign, ← has]
    simp [tlv, tlvBytes, draft, Attr.encode, Attr.value, Attr.kind, sb]
  have hbytes : sb.attrBytes H =
      ((p.call H net (.addIntegrity key)).run H net post).attrs := by
    rw [StunBuilder.attrBytes_signed H rfl, tailBytes_tlvs, tailBytes_tlvs, hbs, hwritten,
      append_assoc]
  have hbuild : ((p.call H net (.addIntegrity key)).run H net post).build = sb.build H := by
    rw [build, draft, StunBuilder.build, hbytes, htype, htxn]
    rfl
  have hfits : sb.attrsSize < 65536 := by
    rw [← StunBuilder.length_attrBytes H, hbytes]
    exact Nat.lt_succ_of_le hsize
  change verifyIntegrity H ((p.call H net (.addIntegrity key)).run H net post).build key = true
  rw [hbuild]
  refine StunBuilder.verifyIntegrity_first H hfits rfl fun a ha hk => ?_
  obtain ⟨a', ha', rfl⟩ := mem_map.mp ha
  obtain ⟨k, hkey⟩ := hkinds a' ha' hk
  exact hpre k hkey

/-- The octet's bits that are still to come stand in the register of the code. -/
private theorem crcStep_xor (reg : BitVec 32) (b k : ℕ) :
    crcStep (reg.toNat ^^^ b >>> k) = (crcShift reg (b.testBit k)).toNat ^^^ b >>> (k + 1) := by
  have hlow : (reg.toNat ^^^ b >>> k) % 2 = 1 ↔ (reg.getLsbD 0 ^^ b.testBit k) = true := by
    rw [Nat.mod_two_eq_one_iff_testBit_zero, Nat.testBit_xor, Nat.testBit_shiftRight]
    rfl
  simp only [crcStep, crcShift, Nat.shiftRight_xor_distrib, ← Nat.shiftRight_add, hlow]
  split_ifs
  · rw [BitVec.toNat_xor, BitVec.toNat_ushiftRight, Nat.xor_assoc, Nat.xor_comm (b >>> (k + 1)),
      ← Nat.xor_assoc]
    rfl
  · rw [Nat.xor_zero, BitVec.toNat_ushiftRight]

private theorem foldl_crcStep (reg : BitVec 32) (b n : ℕ) :
    (List.range n).foldl (fun c _ => crcStep c) (reg.toNat ^^^ b) =
      (((List.range n).map b.testBit).foldl crcShift reg).toNat ^^^ b >>> n := by
  induction n with
  | zero => simp
  | succ n ih =>
    rw [range_succ, foldl_append, ih, map_append, foldl_append]
    exact crcStep_xor _ b n

private theorem stunCrc32_eq_crc32 (data : Bytes) : stunCrc32 data = (crc32 data).toNat := by
  have hfold (reg : BitVec 32) :
      data.foldl (fun crc b => (List.range 8).foldl (fun c _ => crcStep c) (crc ^^^ b.toNat))
        reg.toNat = ((data.flatMap octetBits).foldl crcShift reg).toNat := by
    induction data generalizing reg with
    | nil => rfl
    | cons b data ih =>
      have hgone : b.toNat >>> 8 = 0 := by
        rw [Nat.shiftRight_eq_div_pow]
        exact Nat.div_eq_of_lt b.toNat_lt
      rw [foldl_cons, foldl_crcStep, hgone, Nat.xor_zero, ih, flatMap_cons, foldl_append]
      rfl
  rw [stunCrc32, crc32, BitVec.toNat_xor, ← hfold]
  rfl
private theorem build_fingerprint (hb : b.attrs.length % 4 = 0) :
    ∃ message, (b.call H net .addFingerprint).build =
      message ++ be16 0x8028 ++ be16 4 ++ be32 ((crc32 message).toNat ^^^ 0x5354554E) := by
  refine ⟨b.draft 8, ?_⟩
  rw [← stunCrc32_eq_crc32]
  have hattrs : (b.call H net .addFingerprint).attrs = b.attrs ++
      Stun.addAttr AttrKind.fingerprint.code (be32 (stunCrc32 (b.draft 8) ^^^ 0x5354554E)) := by
    rw [call_attrs H net hb]
    simp [tlv, tlvBytes]
  have hlen : (b.call H net .addFingerprint).attrs.length = b.attrs.length + 8 := by
    rw [hattrs, length_append, StunBuilder.length_addAttr, length_be32]
    rfl
  have hadd (n : ℕ) : Stun.addAttr AttrKind.fingerprint.code (be32 n) =
      be16 0x8028 ++ (be16 4 ++ be32 n) := by simp [Stun.addAttr, align4, AttrKind.code]
  rw [build, draft, hlen, hattrs, hadd, draft]
  simp only [append_assoc]
  rfl

/-- A message that was signed once verifies under its key, whatever is added afterwards, and a
fingerprint added last is that of the message before it. -/
theorem signed_message_verifies (H : Hmac) (net : Inet) (msgType : UInt16) (txn : TransactionId)
    (key : Bytes) (pre post : List BuilderCall) (hpre : ∀ k, .addIntegrity k ∉ pre)
    (hpost : ∀ id, .setTxnId id ∉ post)
    (hsize : (run H net ⟨msgType, txn, []⟩ (pre ++ .addIntegrity key :: post)).attrs.length ≤
      65535) :
    let b := run H net ⟨msgType, txn, []⟩ (pre ++ .addIntegrity key :: post)
    verifyIntegrity H b.build key = true ∧
      ((pre ++ .addIntegrity key :: post).getLast? = some .addFingerprint →
        ∃ message, b.build =
          message ++ be16 0x8028 ++ be16 4 ++ be32 ((crc32 message).toNat ^^^ 0x5354554E)) := by
  intro b
  refine ⟨build_verifies H net rfl hpre hpost hsize, fun hlast => ?_⟩
  obtain ⟨cs, hcs⟩ := List.getLast?_eq_some_iff.mp hlast
  have hb : b = (run H net ⟨msgType, txn, []⟩ cs).call H net .addFingerprint := by
    rw [← run_concat, ← hcs]
  rw [hb]
  exact build_fingerprint H net (run_aligned H net rfl cs)

/-- A signed Binding request with a fingerprint. -/
theorem signed_request_verifies :
    let H := zeroHmac
    let net := Inet.posix
    let b := run H net ⟨1, Block.zero 12, []⟩
      ([.setTxnId (Block.zero 12), .addUsername [0x75, 0x3A, 0x76]] ++
        .addIntegrity [0x6B] :: [.addFingerprint])
    verifyIntegrity H b.build [0x6B] = true ∧ ∃ message, b.build =
      message ++ be16 0x8028 ++ be16 4 ++ be32 ((crc32 message).toNat ^^^ 0x5354554E) := by
  intro H net b
  have h := signed_message_verifies H net 1 (Block.zero 12) [0x6B]
    [.setTxnId (Block.zero 12), .addUsername [0x75, 0x3A, 0x76]] [.addFingerprint] (by simp)
    (by simp) (by decide)
  exact ⟨h.1, h.2 rfl⟩

/-! ### What is sent is read -/

end BuilderObject

namespace BuilderCall

@[simp] def username? : BuilderCall → Option Bytes
  | addUsername username => some username
  | _ => none

@[simp] def realm? : BuilderCall → Option Bytes
  | addRealm realm => some realm
  | _ => none

@[simp] def nonce? : BuilderCall → Option Bytes
  | addNonce nonce => some nonce
  | _ => none

@[simp] def data? : BuilderCall → Option Bytes
  | addData data => some data
  | _ => none

@[simp] def priority? : BuilderCall → Option ℕ
  | addPriority priority => some priority.toNat
  | _ => none

@[simp] def lifetime? : BuilderCall → Option ℕ
  | addLifetime seconds => some seconds.toNat
  | _ => none

@[simp] def errorCode? : BuilderCall → Option ℕ
  | addErrorCode code _ => some code.toNat
  | _ => none

@[simp] def connectionId? : BuilderCall → Option ℕ
  | addConnectionId id => some id.toNat
  | _ => none

@[simp] def iceControlling? : BuilderCall → Option ℕ
  | addIceControlling tb => some tb.toNat
  | _ => none

@[simp] def iceControlled? : BuilderCall → Option ℕ
  | addIceControlled tb => some tb.toNat
  | _ => none

@[simp] def xorPeer? (net : Inet) : BuilderCall → Option MappedAddress
  | addXorPeerAddress ip port => some ⟨net.canonical ip, port.toNat⟩
  | _ => none

@[simp] def xorRelayed? (net : Inet) : BuilderCall → Option MappedAddress
  | addXorRelayedAddress ip port => some ⟨net.canonical ip, port.toNat⟩
  | _ => none

@[simp] def isIntegrity : BuilderCall → Bool
  | addIntegrity _ => true
  | _ => false

/-- Error codes are in the range of the RFC and address texts are addresses. -/
def Valid (net : Inet) : BuilderCall → Prop
  | addErrorCode code _ => 300 ≤ code.toNat ∧ code.toNat ≤ 699
  | addXorPeerAddress ip _ | addXorRelayedAddress ip _ =>
    (net.pton4 ip).isSome = true ∨ (net.pton6 ip).isSome = true
  | _ => True

/-- What `f` reads off the last call it reads anything off. -/
def last {α : Type} (f : BuilderCall → Option α) (cs : List BuilderCall) : Option α :=
  cs.reverse.findSome? f

theorem last_concat {α : Type} {f : BuilderCall → Option α} {cs : List BuilderCall}
    {c : BuilderCall} : last f (cs ++ [c]) = (f c).or (last f cs) := by
  simp only [last, reverse_append, reverse_singleton, singleton_append, List.findSome?_cons]
  cases f c <;> rfl

end BuilderCall

open BuilderCall in
/-- The message that the calls stand for: each field from the last call that sets it. -/
def sentMessage (net : Inet) (msgType : UInt16) (txn : TransactionId) (cs : List BuilderCall) :
    StunMessage where
  msgType := msgType.toNat
  txnId := txn
  xorPeer := last (xorPeer? net) cs
  xorRelayed := last (xorRelayed? net) cs
  priority := last priority? cs
  lifetime := last lifetime? cs
  errorCode := last errorCode? cs
  username := last username? cs
  realm := last realm? cs
  nonce := last nonce? cs
  connectionId := last connectionId? cs
  data := (last data? cs).getD []
  useCandidate := cs.contains .addUseCandidate
  iceControlling := last iceControlling? cs
  iceControlled := last iceControlled? cs
  hasIntegrity := cs.any (·.isIntegrity)
  hasFingerprint := cs.contains .addFingerprint

namespace BuilderObject

variable (H : Hmac) (net : Inet) {b : BuilderObject} {cs : List BuilderCall}

theorem read32_be32_toNat {n : UInt32} : read32 (be32 n.toNat) = n.toNat := by
  rw [← append_nil (be32 _), read32_be32]
  exact Nat.mod_eq_of_lt n.toNat_lt

private theorem read64_be64_toNat {n : UInt64} : read64 (be64 n.toNat) = n.toNat := by
  rw [← append_nil (be64 _), read64_be64]
  exact Nat.mod_eq_of_lt n.toNat_lt

open BuilderCall in
private theorem sentMessage_concat {c : BuilderCall} (hc : c.Valid net) (msgType : UInt16)
    (cs : List BuilderCall) :
    sentMessage net msgType b.txnId (cs ++ [c]) = ((b.tlv H net c).map fun a =>
      (sentMessage net msgType b.txnId cs).setAttr net a.1 a.2).getD
        (sentMessage net msgType b.txnId cs) := by
  have hcode (code : UInt16) (h : 300 ≤ code.toNat ∧ code.toNat ≤ 699) :
      code.toNat / 100 % 256 * 100 + code.toNat % 100 % 256 = code.toNat := by omega
  cases c with
  | addPaddingTo target =>
    have hsame : sentMessage net msgType b.txnId (cs ++ [.addPaddingTo target]) =
        sentMessage net msgType b.txnId cs := by
      simp [sentMessage, last_concat]
    rw [hsame, tlv]
    split_ifs <;> rfl
  | addXorPeerAddress ip port =>
    have haddr := decodeXorAddr_encodeXorAddr net port b.txnId hc
    simp [sentMessage, last_concat, tlv, StunMessage.setAttr, haddr]
  | addXorRelayedAddress ip port =>
    have haddr := decodeXorAddr_encodeXorAddr net port b.txnId hc
    simp [sentMessage, last_concat, tlv, StunMessage.setAttr, haddr]
  | addErrorCode code reason =>
    have hread := hcode code hc
    simp [sentMessage, last_concat, tlv, StunMessage.setAttr, hread]
  | _ =>
    simp [sentMessage, last_concat, tlv, StunMessage.setAttr, read32_be32_toNat, read64_be64_toNat]

theorem run_sentMessage (hempty : b.attrs = []) (hadds : ∀ id, .setTxnId id ∉ cs)
    (hvalid : ∀ c ∈ cs, c.Valid net) :
    ∃ as, (b.run H net cs).attrs = tlvBytes as ∧
      (StunBuilder.ofTlvs b.msgType b.txnId as).message net =
        sentMessage net b.msgType b.txnId cs := by
  have hb : b.attrs.length % 4 = 0 := by simp [hempty]
  induction cs using List.reverseRecOn with
  | nil => exact ⟨[], by simp [run, tlvBytes, hempty], rfl⟩
  | append_singleton cs c ih =>
    have hadds' (id : TransactionId) : .setTxnId id ∉ cs := fun h => hadds id (by simp [h])
    obtain ⟨as, has, hmsg⟩ := ih hadds' fun c hc => hvalid c (by simp [hc])
    have htxn : (b.run H net cs).txnId = b.txnId :=
      run_txnId H net fun c hc id he => hadds' id (he ▸ hc)
    refine ⟨as ++ ((b.run H net cs).tlv H net c).toList, ?_, ?_⟩
    · rw [run_concat, call_attrs H net (run_aligned H net hb cs), has]
      simp [tlvBytes]
    · have hstep := sentMessage_concat H net (b := b.run H net cs) (hvalid c (by simp))
        b.msgType cs
      rw [htxn] at hstep
      rw [hstep, ← hmsg]
      cases (b.run H net cs).tlv H net c with
      | none => simp
      | some a => simp [StunBuilder.ofTlvs, StunBuilder.message, Attr.note]

/-- What is built under a transaction id is read as the message that the calls stand for. -/
theorem build_parse_round_trip (H : Hmac) (net : Inet) (msgType : UInt16)
    (drawn txn : TransactionId) (cs : List BuilderCall) (hadds : ∀ id, .setTxnId id ∉ cs)
    (hvalid : ∀ c ∈ cs, c.Valid net)
    (hsize : (run H net ⟨msgType, drawn, []⟩ (.setTxnId txn :: cs)).attrs.length ≤ 65535) :
    parseStun net (run H net ⟨msgType, drawn, []⟩ (.setTxnId txn :: cs)).build =
      some (sentMessage net msgType txn cs) := by
  have hrun : run H net ⟨msgType, drawn, []⟩ (.setTxnId txn :: cs) =
      run H net ⟨msgType, txn, []⟩ cs := rfl
  rw [hrun] at hsize ⊢
  obtain ⟨as, has, hmsg⟩ := run_sentMessage H net (b := ⟨msgType, txn, []⟩) rfl hadds hvalid
  have htype : (run H net ⟨msgType, txn, []⟩ cs).msgType = msgType := run_msgType H net cs
  have htxn : (run H net ⟨msgType, txn, []⟩ cs).txnId = txn :=
    run_txnId H net fun c hc id he => hadds id (he ▸ hc)
  rw [build_eq has, htype, htxn]
  refine (StunBuilder.parseStun_written H net _ msgType.toNat_lt ?_).trans (congrArg some hmsg)
  rw [length_tlvBytes, ← has]
  exact Nat.lt_succ_of_le hsize

/-- A check with two user names, of which the second counts. -/
theorem last_username_read :
    let H := zeroHmac
    let net := Inet.posix
    let cs : List BuilderCall := [.addUsername [0x75], .addUseCandidate, .addErrorCode 487 [],
      .addUsername [0x76], .addIntegrity [0x6B]]
    parseStun net (run H net ⟨1, Block.zero 12, []⟩ (.setTxnId (Block.zero 12) :: cs)).build =
      some (sentMessage net 1 (Block.zero 12) cs) ∧
        (sentMessage net 1 (Block.zero 12) cs).username = some [0x76] := by
  intro H net cs
  refine ⟨build_parse_round_trip H net 1 _ _ cs (by simp [cs]) ?_ (by decide), by decide⟩
  intro c hc
  simp only [cs, mem_cons, not_mem_nil, or_false] at hc
  rcases hc with rfl | rfl | rfl | rfl | rfl
  · trivial
  · trivial
  · exact ⟨by decide, by decide⟩
  · trivial
  · trivial

end BuilderObject

/-! ### The builder of the session model -/

namespace StunBuilder

/-- The same call on the list of attributes, whose digests are computed when it is built. -/
def call (net : Inet) (b : StunBuilder) : BuilderCall → StunBuilder
  | .setTxnId id => { b with txnId := id }
  | .addUsername username => b.addUsername username
  | .addPriority priority => b.addPriority priority.toNat
  | .addUseCandidate => b.addUseCandidate
  | .addIceControlling tb => b.addIceControlling tb.toNat
  | .addIceControlled tb => b.addIceControlled tb.toNat
  | .addXorPeerAddress ip port => addXorPeerAddress net b ip port.toNat
  | .addXorRelayedAddress ip port =>
    b.add (.tlv .xorRelayedAddress (encodeXorAddr net ip port.toNat b.txnId))
  | .addErrorCode code reason => b.addErrorCode code.toNat reason
  | .addData data => b.addData data
  | .addChannelNumber channel => b.addChannelNumber channel.toNat
  | .addRequestedTransport proto => b.addRequestedTransport proto.toNat
  | .addLifetime seconds => b.addLifetime seconds.toNat
  | .addRealm realm => b.addRealm realm
  | .addNonce nonce => b.addNonce nonce
  | .addConnectionId id => b.addConnectionId id.toNat
  | .addIntegrity key => b.addIntegrity key
  | .addFingerprint => b.addFingerprint
  | .addPaddingTo target => b.addPaddingTo target

structure Defers (H : Hmac) (b : StunBuilder) (o : BuilderObject) : Prop where
  msgType : b.msgType = o.msgType.toNat
  txnId : b.txnId = o.txnId
  attrs : b.attrBytes H = o.attrs

variable {H : Hmac} {net : Inet} {b : StunBuilder} {o : BuilderObject} {a : Attr}

private theorem attrBytes_add :
    (b.add a).attrBytes H = b.attrBytes H ++ a.encode H b (b.attrBytes H) := by
  have hsame (acc : Bytes) (as : List Attr) : (b.add a).encodeFrom H acc as =
      b.encodeFrom H acc as := by
    induction as generalizing acc with
    | nil => rfl
    | cons x as ih =>
      have hx : x.encode H (b.add a) acc = x.encode H b acc := by cases x <;> rfl
      simp only [encodeFrom, foldl_cons] at ih ⊢
      rw [hx, ih]
  rw [attrBytes, hsame]
  simp [add, attrBytes, encodeFrom]

theorem Defers.add (h : b.Defers H o) (ho : o.attrs.length % 4 = 0) {value : Bytes}
    (hv : a.value H b (b.attrBytes H) = value) : (b.add a).Defers H (o.addAttr a.kind value) where
  msgType := h.msgType
  txnId := h.txnId
  attrs := by
    rw [attrBytes_add, BuilderObject.addAttr_attrs ho, Attr.encode, hv, h.attrs]

theorem Defers.call (h : b.Defers H o) (ho : o.attrs.length % 4 = 0) {c : BuilderCall}
    (hc : ∀ id, c ≠ .setTxnId id) : (b.call net c).Defers H (o.call H net c) := by
  have hdraft (more : ℕ) : header b.msgType ((b.attrBytes H).length + more) b.txnId ++
      b.attrBytes H = o.draft more := by
    rw [h.msgType, h.txnId, h.attrs]
    rfl
  cases c with
  | setTxnId id => exact absurd rfl (hc id)
  | addIntegrity key => exact h.add ho (congrArg (fun m => (H key m).1) (hdraft 24))
  | addFingerprint =>
    exact h.add ho (congrArg (fun m => be32 (stunCrc32 m ^^^ 0x5354554E)) (hdraft 8))
  | addXorPeerAddress | addXorRelayedAddress =>
    refine h.add ho ?_
    rw [Attr.value, h.txnId]
  | addRequestedTransport proto =>
    refine h.add ho ?_
    rw [Attr.value, UInt8.ofNat_toNat]
  | addPaddingTo target =>
    have hsize : b.attrsSize = o.attrs.length := by rw [← length_attrBytes H, h.attrs]
    simp only [StunBuilder.call, addPaddingTo, BuilderObject.call, BuilderObject.tlv, hsize]
    split_ifs
    · exact h
    · exact h.add ho rfl
  | _ => exact h.add ho rfl

/-- Digests computed when the message is built are those of the object that writes them at once. -/
theorem build_deferred {msgType : UInt16} {txn : TransactionId} {cs : List BuilderCall}
    (hadds : ∀ id, .setTxnId id ∉ cs) :
    (cs.foldl (call net) ⟨msgType.toNat, txn, []⟩).build H =
      (BuilderObject.run H net ⟨msgType, txn, []⟩ cs).build := by
  have hdefers : (cs.foldl (call net) ⟨msgType.toNat, txn, []⟩).Defers H
      (BuilderObject.run H net ⟨msgType, txn, []⟩ cs) := by
    induction cs using List.reverseRecOn with
    | nil => exact ⟨rfl, rfl, rfl⟩
    | append_singleton cs c ih =>
      rw [BuilderObject.run_concat, foldl_concat]
      exact (ih fun id h => hadds id (by simp [h])).call (BuilderObject.run_aligned H net rfl cs)
        fun id hid => hadds id (by simp [hid])
  rw [build, hdefers.msgType, hdefers.txnId, hdefers.attrs]
  rfl

theorem signed_request_deferred :
    let H := zeroHmac
    let net := Inet.posix
    let cs : List BuilderCall := [.addUsername [0x75], .addIntegrity [0x6B], .addFingerprint]
    (cs.foldl (call net) ⟨(1 : UInt16).toNat, Block.zero 12, []⟩).build H =
      (BuilderObject.run H net ⟨1, Block.zero 12, []⟩ cs).build := by
  intro H net cs
  exact build_deferred (by simp [cs])

end StunBuilder

end LinkIce.Stun
