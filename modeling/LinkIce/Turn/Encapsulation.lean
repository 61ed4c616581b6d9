import LinkIce.Stun.Calls
import LinkIce.Turn.Channels

/-! What a TURN server gets when the client relays data: the exact sizes that survive the length
fields of the attribute, the message and the stream frame. -/
namespace LinkIce
open Stun List

namespace TurnClient

variable {H : Hmac} {net : Inet} {c : TurnClient} {txn : TransactionId} {peer : Endpoint}
  {data raw : Bytes} {channel : ℕ} {v6 : Bool}

/-- The channel that `send_indication` finds for the peer; zero is none. -/
def channelOf (c : TurnClient) (peer : Endpoint) : ℕ := (c.peerToChannel.lookup peer).getD 0

def sendBuilder (net : Inet) (txn : TransactionId) (peer : Endpoint) (data : Bytes) : StunBuilder :=
  StunBuilder.addData
    (StunBuilder.addXorPeerAddress net ⟨turnSendIndication, txn, []⟩ peer.ip peer.port) data

/-- The message for the server, before it is framed. -/
def encapsulate (H : Hmac) (net : Inet) (c : TurnClient) (txn : TransactionId) (peer : Endpoint)
    (data : Bytes) : Bytes :=
  if c.channelOf peer ≠ 0 then encodeChannelData (c.channelOf peer) data
  else (sendBuilder net txn peer data).build H

theorem sendIndication_eq :
    c.sendIndication H net txn peer data = c.sendToServer (c.encapsulate H net txn peer data) := by
  unfold sendIndication encapsulate channelOf
  dsimp only
  split <;> rfl

/-- The carrier got one message, and `raw` is in it: framed on a stream, alone otherwise. -/
def Carried (c : TurnClient) (sent : List Bytes) (raw : Bytes) : Prop :=
  ∃ f, sent = [f] ∧ if c.streamFraming then tryTakeStreamFrame f = some (raw, []) else raw = f

/-- The server reads the peer and the data from the message, and takes it for what it is. -/
def Decodes (net : Inet) (channel : ℕ) (peer : Endpoint) (data raw : Bytes) : Prop :=
  if channel = 0 then
    isChannelData raw = false ∧ ∃ m, parseStun net raw = some m ∧ m.msgType = turnSendIndication ∧
      m.xorPeer = some ⟨peer.ip, peer.port⟩ ∧ m.data = data
  else isChannelData raw = true ∧ parseChannelData raw = some (channel, data)

/-- An address that the C library knows, in its own text. -/
structure IsPeer (net : Inet) (v6 : Bool) (peer : Endpoint) : Prop where
  known : (net.pton4 peer.ip).isSome = true ∨ (net.pton6 peer.ip).isSome = true
  family : v6 = (net.pton4 peer.ip).isNone
  canonical : net.canonical peer.ip = peer.ip
  port : peer.port < 65536

/-- The longest data that a Send indication can carry. -/
def indicationLimit (stream v6 : Bool) : ℕ :=
  match stream, v6 with
  | false, false => 65516
  | false, true => 65504
  | true, false => 65496
  | true, true => 65484

/-! ### The carrier -/

theorem sendToServer_carried (hcid : c.serverCid ≠ 0)
    (hlen : c.streamFraming = true → raw.length ≤ 0xFFFF) : Carried c (c.sendToServer raw) raw := by
  unfold sendToServer Carried
  rw [if_neg hcid]
  cases hstream : c.streamFraming with
  | false => exact ⟨raw, rfl, rfl⟩
  | true =>
    have hshort := hlen hstream
    have hframe : encodeStreamFrame raw = some (be16 raw.length ++ raw) :=
      if_neg (Nat.not_lt.mpr hshort)
    refine ⟨be16 raw.length ++ raw, ?_, ?_⟩
    · rw [if_pos rfl, hframe]
      rfl
    · rw [if_pos rfl]
      exact isFrame_be16 hshort

theorem carried_inv {sent : Bytes} (h : Carried c (c.sendToServer sent) raw) :
    c.serverCid ≠ 0 ∧ raw = sent ∧ (c.streamFraming = true → sent.length ≤ 0xFFFF) := by
  obtain ⟨f, hsent, hframe⟩ := h
  unfold sendToServer at hsent
  split_ifs at hsent with hcid hstream
  · rw [if_pos hstream] at hframe
    cases henc : encodeStreamFrame sent with
    | none => simp [henc] at hsent
    | some g =>
      rw [henc] at hsent
      obtain rfl : g = f := by simpa using hsent
      have hread : tryTakeStreamFrame g = some (sent, []) := encodeStreamFrame_isFrame henc
      obtain ⟨rfl, -⟩ := Prod.mk.inj (Option.some.inj (hframe.symm.trans hread))
      refine ⟨hcid, rfl, fun _ => ?_⟩
      unfold encodeStreamFrame at henc
      split_ifs at henc with hlong
      exact Nat.not_lt.mp hlong
  · rw [if_neg hstream] at hframe
    obtain rfl : sent = f := by simpa using hsent
    exact ⟨hcid, hframe, fun h => absurd h hstream⟩

/-! ### ChannelData -/

theorem length_encodeChannelData_le (channel : ℕ) (data : Bytes) :
    (encodeChannelData channel data).length ≤ 7 + data.length := by
  simp only [encodeChannelData, length_append, length_be16, length_replicate]
  omega

private theorem channel_top (hmin : turnChannelNumberMin ≤ channel)
    (hmax : channel ≤ turnChannelNumberMax) : UInt8.ofNat (channel / 256) &&& 0xC0 = 0x40 := by
  have hall : ∀ n < 64, UInt8.ofNat (64 + n) &&& 0xC0 = 0x40 := by decide
  unfold turnChannelNumberMin at hmin
  unfold turnChannelNumberMax at hmax
  have hbyte : channel / 256 = 64 + (channel / 256 - 64) := by omega
  rw [hbyte]
  exact hall _ (by omega)

theorem parseChannelData_encode (hmin : turnChannelNumberMin ≤ channel)
    (hmax : channel ≤ turnChannelNumberMax) (hlen : data.length < 65536) :
    isChannelData (encodeChannelData channel data) = true ∧
      parseChannelData (encodeChannelData channel data) = some (channel, data) := by
  have htop := channel_top hmin hmax
  have hwidth : channel < 65536 := by
    unfold turnChannelNumberMax at hmax
    omega
  have hbytes : encodeChannelData channel data = be16 channel ++ (be16 data.length ++
      (data ++ List.replicate ((4 - data.length % 4) % 4) 0)) := by
    simp only [encodeChannelData, append_assoc]
  have hsize : 4 + data.length ≤ (encodeChannelData channel data).length := by
    simp only [hbytes, length_append, length_be16]
    omega
  have hread : read16 (encodeChannelData channel data) = channel := by
    rw [hbytes, read16_be16, Nat.mod_eq_of_lt hwidth]
  have hcount : read16 ((encodeChannelData channel data).drop 2) = data.length := by
    rw [hbytes, drop_left' (length_be16 _), read16_be16, Nat.mod_eq_of_lt hlen]
  have hbody : ((encodeChannelData channel data).drop 4).take data.length = data := by
    rw [hbytes, ← append_assoc, drop_left' (by simp), take_left]
  constructor
  · have hfirst : (encodeChannelData channel data).getD 0 0 = UInt8.ofNat (channel / 256) := rfl
    unfold isChannelData
    rw [hfirst, htop, decide_eq_true (by omega)]
    rfl
  · unfold parseChannelData
    dsimp only
    rw [hread, hcount, if_neg (by omega), hbody]

theorem parseChannelData_range (h : parseChannelData raw = some (channel, data)) :
    turnChannelNumberMin ≤ channel ∧ channel ≤ turnChannelNumberMax := by
  unfold parseChannelData at h
  dsimp only at h
  split_ifs at h with hbad
  obtain ⟨rfl, -⟩ := Prod.mk.inj (Option.some.inj h)
  omega

/-! ### Send indications -/

theorem IsPeer.length_encoded (hpeer : IsPeer net v6 peer) :
    (encodeXorAddr net peer.ip peer.port txn).length = if v6 then 20 else 8 := by
  rw [length_encodeXorAddr, hpeer.family]
  rcases hpeer.known with h | h <;> cases h4 : net.pton4 peer.ip <;> simp_all

theorem attrsSize_sendBuilder (hpeer : IsPeer net v6 peer) :
    (sendBuilder net txn peer data).attrsSize = (if v6 then 28 else 16) + align4 data.length := by
  have haddr : (encodeXorAddr net peer.ip peer.port txn).length = if v6 then 20 else 8 :=
    hpeer.length_encoded
  have hsize : (sendBuilder net txn peer data).attrsSize =
      (4 + align4 (encodeXorAddr net peer.ip peer.port txn).length) +
        ((4 + align4 data.length) + 0) := rfl
  rw [hsize, haddr]
  cases v6 <;> simp [align4] <;> omega

theorem isChannelData_sendBuilder :
    isChannelData ((sendBuilder net txn peer data).build H) = false := by
  have htype : be16 (sendBuilder net txn peer data).msgType = [0, 0x16] := by
    change be16 turnSendIndication = [0, 0x16]
    decide
  have hfirst : ((sendBuilder net txn peer data).build H).getD 0 0 = 0 := by
    rw [StunBuilder.build_append, htype]
    rfl
  unfold isChannelData
  rw [hfirst, Bool.and_eq_false_iff]
  exact .inr rfl

theorem parseStun_sendBuilder (hpeer : IsPeer net v6 peer)
    (hfits : (sendBuilder net txn peer data).attrsSize < 65536) :
    ∃ m, parseStun net ((sendBuilder net txn peer data).build H) = some m ∧
      m.msgType = turnSendIndication ∧ m.xorPeer = some ⟨peer.ip, peer.port⟩ ∧ m.data = data := by
  have hread := StunBuilder.parseStun_written H net (sendBuilder net txn peer data)
    (show turnSendIndication < 65536 by decide) hfits
  have haddr := decodeXorAddr_encodeXorAddr net (UInt16.ofNat peer.port) txn hpeer.known
  rw [hpeer.canonical, UInt16.toNat_ofNat_of_lt' hpeer.port] at haddr
  exact ⟨_, hread, rfl, haddr, rfl⟩

/-- The length of a message that is too long wraps to less than its first attribute, and the
data is not read. -/
theorem parseStun_sendBuilder_wrapped {m : StunMessage} (hpeer : IsPeer net v6 peer)
    (hlow : 65536 ≤ (sendBuilder net txn peer data).attrsSize)
    (hhigh : (sendBuilder net txn peer data).attrsSize ≤ 65544)
    (h : parseStun net ((sendBuilder net txn peer data).build H) = some m) : m.data = [] := by
  have hlen : read16 (((sendBuilder net txn peer data).build H).drop 2) ≤ 8 := by
    rw [StunBuilder.build_append, drop_left' (length_be16 _), read16_be16,
      StunBuilder.length_attrBytes]
    omega
  have haddr : (encodeXorAddr net peer.ip peer.port txn).length = if v6 then 20 else 8 :=
    hpeer.length_encoded
  have hbytes : (sendBuilder net txn peer data).attrBytes H =
      addAttr AttrKind.xorPeerAddress.code (encodeXorAddr net peer.ip peer.port txn) ++
        addAttr AttrKind.data.code data := by
    rw [StunBuilder.attrBytes_eq]
    exact congrArg (_ ++ ·) (append_nil _)
  unfold parseStun at h
  dsimp only at h
  split_ifs at h
  obtain rfl := Option.some.inj h
  generalize read16 (((sendBuilder net txn peer data).build H).drop 2) = left at hlen
  rw [StunBuilder.drop_build, hbytes, parseLoop_eq]
  by_cases hnone : left < 4
  · rw [attributes_done hnone]
    rfl
  · obtain ⟨fuel, rfl⟩ : ∃ k, left = k + 1 := ⟨left - 1, by omega⟩
    have hfield : (encodeXorAddr net peer.ip peer.port txn).length < 65536 := by
      rw [haddr]
      split <;> decide
    have hrest : fuel + 1 - (4 + align4 (encodeXorAddr net peer.ip peer.port txn).length) < 4 := by
      rw [haddr]
      unfold align4
      split <;> omega
    rw [StunBuilder.attributes_addAttr _ _ _ (by decide) hfield (by omega), attributes_done hrest]
    rfl

private theorem indicationLimit_spec (stream v6 : Bool) (n : ℕ) :
    n ≤ indicationLimit stream v6 ↔ (if v6 then 28 else 16) + align4 n < 65536 ∧
      (stream = true → 20 + ((if v6 then 28 else 16) + align4 n) ≤ 0xFFFF) := by
  unfold align4
  cases stream <;> cases v6 <;> simp [indicationLimit] <;> omega

/-- **Relayed data.** A payload that the link accepts arrives at the server whole and under the
right peer exactly if the client has a connection to the server, the channel of the peer is a
channel number, and a peer without a channel gets no more than a Send indication can carry. -/
theorem relay_delivers_iff (H : Hmac) (net : Inet) (c : TurnClient) (txn : TransactionId)
    (peer : Endpoint) (data : Bytes) (v6 : Bool) (hpeer : IsPeer net v6 peer)
    (hdata : data.length ≤ 65511) :
    (∃ raw, Carried c (c.sendIndication H net txn peer data) raw ∧
      Decodes net (c.channelOf peer) peer data raw) ↔
    c.serverCid ≠ 0 ∧
      if c.channelOf peer = 0 then data.length ≤ indicationLimit c.streamFraming v6
      else turnChannelNumberMin ≤ c.channelOf peer ∧ c.channelOf peer ≤ turnChannelNumberMax := by
  rw [sendIndication_eq, encapsulate]
  by_cases hchannel : c.channelOf peer = 0
  · rw [if_neg (not_not.mpr hchannel), if_pos hchannel]
    have hsize : (sendBuilder net txn peer data).attrsSize =
        (if v6 then 28 else 16) + align4 data.length := attrsSize_sendBuilder hpeer
    have hlen : ((sendBuilder net txn peer data).build H).length =
        20 + (sendBuilder net txn peer data).attrsSize := StunBuilder.length_build H _
    have hlimit := indicationLimit_spec c.streamFraming v6 data.length
    constructor
    · rintro ⟨raw, hcarried, hdecodes⟩
      obtain ⟨hcid, rfl, hshort⟩ := carried_inv hcarried
      rw [Decodes, if_pos hchannel] at hdecodes
      obtain ⟨-, m, hm, -, -, hmdata⟩ := hdecodes
      refine ⟨hcid, ?_⟩
      by_cases hfits : (sendBuilder net txn peer data).attrsSize < 65536
      · exact hlimit.mpr ⟨by omega, fun hstream => by have := hshort hstream; omega⟩
      · have halign : align4 data.length ≤ 65512 := by
          unfold align4
          omega
        have hempty : m.data = [] :=
          parseStun_sendBuilder_wrapped hpeer (by omega) (by split at hsize <;> omega) hm
        rw [← hmdata, hempty]
        exact Nat.zero_le _
    · rintro ⟨hcid, hshort⟩
      obtain ⟨hfits, hframe⟩ := hlimit.mp hshort
      refine ⟨_, sendToServer_carried hcid fun hstream => ?_, ?_⟩
      · have hroom := hframe hstream
        omega
      · rw [Decodes, if_pos hchannel]
        exact ⟨isChannelData_sendBuilder, parseStun_sendBuilder hpeer (by omega)⟩
  · rw [if_pos hchannel, if_neg hchannel]
    constructor
    · rintro ⟨raw, hcarried, hdecodes⟩
      rw [Decodes, if_neg hchannel] at hdecodes
      exact ⟨(carried_inv hcarried).1, parseChannelData_range hdecodes.2⟩
    · rintro ⟨hcid, hmin, hmax⟩
      have hlen := length_encodeChannelData_le (c.channelOf peer) data
      refine ⟨_, sendToServer_carried hcid fun _ => by omega, ?_⟩
      rw [Decodes, if_neg hchannel]
      exact parseChannelData_encode hmin hmax (by omega)

def v6Peer : Endpoint := ⟨[0x3A, 0x3A], 4000⟩

theorem isPeer_v6Peer : IsPeer .posix true v6Peer where
  known := .inr rfl
  family := rfl
  canonical := rfl
  port := by decide

def unboundClient : TurnClient := { carrier := .udp, serverCid := 1, cfg := {}, backup := false }

theorem unboundClient_channelOf : unboundClient.channelOf v6Peer = 0 := rfl

/-- At 65504 bytes a Send indication is still whole. -/
theorem unbound_delivers_65504 :
    (List.replicate 65504 (0 : UInt8)).length ≤ 65511 ∧
    ∃ raw, Carried unboundClient (unboundClient.sendIndication zeroHmac .posix
        (Block.zero 12) v6Peer (List.replicate 65504 0)) raw ∧
      Decodes .posix (unboundClient.channelOf v6Peer) v6Peer (List.replicate 65504 0) raw := by
  have hlen : (List.replicate 65504 (0 : UInt8)).length = 65504 := length_replicate
  refine ⟨by omega, (relay_delivers_iff _ .posix unboundClient _ v6Peer _ true isPeer_v6Peer
    (by omega)).mpr ⟨by decide, ?_⟩⟩
  rw [if_pos unboundClient_channelOf, hlen]
  decide

/-- One byte more, and the length of the message wraps to zero: the link accepts the payload and
the server reads nothing. -/
theorem unbound_loses_65505 : ¬ ∃ H raw,
    Carried unboundClient (unboundClient.sendIndication H .posix (Block.zero 12) v6Peer
      (List.replicate 65505 0)) raw ∧
    Decodes .posix (unboundClient.channelOf v6Peer) v6Peer (List.replicate 65505 0) raw := by
  rintro ⟨H, raw, hcarried, hdecodes⟩
  rw [sendIndication_eq] at hcarried
  obtain ⟨-, rfl, -⟩ := carried_inv hcarried
  rw [Decodes, if_pos unboundClient_channelOf, encapsulate,
    if_neg (not_not.mpr unboundClient_channelOf)] at hdecodes
  obtain ⟨-, m, hm, -, -, hdata⟩ := hdecodes
  have hsize : (sendBuilder .posix (Block.zero 12) v6Peer (List.replicate 65505 0)).attrsSize =
      65536 := by
    rw [attrsSize_sendBuilder isPeer_v6Peer, length_replicate]
    rfl
  have hempty : m.data = [] := parseStun_sendBuilder_wrapped isPeer_v6Peer (by omega) (by omega) hm
  have hlen := congrArg List.length (hdata.symm.trans hempty)
  rw [length_replicate] at hlen
  cases hlen

end TurnClient

end LinkIce
