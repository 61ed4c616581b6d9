import LinkIce.Stun.Parser
import Mathlib.Data.List.AList

/-! The TURN client as the session drives it: allocation, permissions, channels
and the control-connection dispatcher. Every operation returns the client and
what it hands to the carrier or to the session's callbacks. -/
namespace LinkIce
open Stun

structure Endpoint where
  ip : Bytes
  port : ℕ
  deriving DecidableEq, Repr

abbrev Cid := ℕ

inductive CarrierKind
  | udp | tcp | tls
  deriving DecidableEq, Repr

structure TurnConfig where
  server : Bytes := []
  port : ℕ := 3478
  username : Bytes := []
  password : Bytes := []
  tcpTransport : Bool := false
  tlsTransport : Bool := false
  requestedTransport : ℕ := 17
  deriving DecidableEq, Repr

def requestedTransportTcp : ℕ := 6
def turnChannelNumberMin : ℕ := 0x4000
def turnChannelNumberMax : ℕ := 0x7FFF

/-- `backup` tells which pair of callbacks the client was built with: those of
`try_next_turn_attempt` or those of `on_turn_backup_tick`. -/
structure TurnClient where
  carrier : CarrierKind
  serverCid : Cid
  cfg : TurnConfig
  backup : Bool
  allocated : Bool := false
  refreshHealthy : Bool := true
  relayed : Endpoint := ⟨[], 0⟩
  realm : Bytes := []
  nonce : Bytes := []
  authKey : Bytes := []
  lifetime : ℕ := 600
  permissions : List Bytes := []
  peerToChannel : AList (fun _ : Endpoint => ℕ) := ∅
  channelToPeer : AList (fun _ : ℕ => Endpoint) := ∅
  nextChannel : ℕ := turnChannelNumberMin
  rxBuffer : Bytes := []

inductive TurnOutput
  | toServer (b : StunBuilder)
  | allocated (relay : Endpoint)
  | data (peer : Endpoint) (payload : Bytes)
  deriving DecidableEq, Repr

def isChannelData (raw : Bytes) : Bool :=
  decide (4 ≤ raw.length) && (raw.getD 0 0 &&& 0xC0) == 0x40

def parseChannelData (raw : Bytes) : Option (ℕ × Bytes) :=
  let channel := read16 raw
  let len := read16 (raw.drop 2)
  if raw.length < 4 ∨ channel < turnChannelNumberMin ∨ turnChannelNumberMax < channel ∨
      raw.length < 4 + len then none
  else some (channel, (raw.drop 4).take len)

namespace TurnClient

variable {c : TurnClient} {txn : TransactionId} {net : Inet}

def isHealthy (c : TurnClient) : Bool := c.allocated && c.refreshHealthy

def streamFraming (c : TurnClient) : Bool := c.cfg.tcpTransport || c.cfg.tlsTransport

def toServer (c : TurnClient) (b : StunBuilder) : List TurnOutput :=
  if c.serverCid = 0 then [] else [.toServer b]

def addCredentials (c : TurnClient) (b : StunBuilder) : StunBuilder :=
  ((((b.addUsername c.cfg.username).addRealm c.realm).addNonce c.nonce).addIntegrity
    c.authKey).addFingerprint

def allocate (c : TurnClient) (txn : TransactionId) : List TurnOutput :=
  if c.cfg.server = [] then []
  else c.toServer
    (StunBuilder.addRequestedTransport ⟨turnAllocateRequest, txn, []⟩ c.cfg.requestedTransport)

def createPermission (net : Inet) (c : TurnClient) (txn : TransactionId) (ip : Bytes) :
    TurnClient × List TurnOutput :=
  if ip ∈ c.permissions then (c, [])
  else ({ c with permissions := ip :: c.permissions },
    c.toServer (c.addCredentials
      (StunBuilder.addXorPeerAddress net ⟨turnCreatePermRequest, txn, []⟩ ip 0)))

def bindChannel (net : Inet) (c : TurnClient) (txn : TransactionId) (peer : Endpoint) :
    TurnClient × List TurnOutput :=
  if c.cfg.requestedTransport = requestedTransportTcp then (c, [])
  else if (c.peerToChannel.lookup peer).isSome then (c, [])
  else
    let channel := c.nextChannel
    let c := { c with nextChannel := (channel + 1) % 65536 }
    if turnChannelNumberMax < channel then (c, [])
    else
      let c := { c with
        peerToChannel := c.peerToChannel.insert peer channel
        channelToPeer := c.channelToPeer.insert channel peer
        permissions := c.permissions.insert peer.ip }
      (c, c.toServer (c.addCredentials (StunBuilder.addXorPeerAddress net
        (StunBuilder.addChannelNumber ⟨turnChannelBindRequest, txn, []⟩ channel)
        peer.ip peer.port)))

/-- Deallocation: a refresh with lifetime zero. -/
def close (c : TurnClient) (txn : TransactionId) : TurnClient × List TurnOutput :=
  if !c.allocated then (c, [])
  else ({ c with allocated := false },
    c.toServer (c.addCredentials (StunBuilder.addLifetime ⟨turnRefreshRequest, txn, []⟩ 0)))

def computeAuthKey (md5 : Bytes → Bytes) (c : TurnClient) : TurnClient :=
  { c with authKey := md5 (c.cfg.username ++ [0x3A] ++ c.realm ++ [0x3A] ++ c.cfg.password) }

def handleAllocateError (md5 : Bytes → Bytes) (c : TurnClient) (txn : TransactionId)
    (m : StunMessage) : TurnClient × List TurnOutput :=
  if m.errorCode = some 401 ∨ m.errorCode = some 438 then
    let c := computeAuthKey md5
      { c with realm := m.realm.getD c.realm, nonce := m.nonce.getD c.nonce }
    (c, c.toServer (c.addCredentials (StunBuilder.addRequestedTransport
      ⟨turnAllocateRequest, txn, []⟩ c.cfg.requestedTransport)))
  else (c, [])

def handleAllocateResponse (c : TurnClient) (m : StunMessage) : TurnClient × List TurnOutput :=
  match m.xorRelayed with
  | none => (c, [])
  | some a =>
    ({ c with
      relayed := ⟨a.ip, a.port⟩
      allocated := true
      lifetime := m.lifetime.getD c.lifetime }, [.allocated ⟨a.ip, a.port⟩])

def handleChannelData (c : TurnClient) (bytes : Bytes) : List TurnOutput :=
  match parseChannelData bytes with
  | none => []
  | some (channel, payload) =>
    match c.channelToPeer.lookup channel with
    | none => []
    | some peer => [.data peer payload]

def handleDataIndication (m : StunMessage) : List TurnOutput :=
  match m.xorPeer with
  | some a => if m.data = [] then [] else [.data ⟨a.ip, a.port⟩ m.data]
  | none => []

/-- `dispatch_inbound_message`. The RFC 6062 indications need a data-carrier
factory, which the session never installs. -/
def dispatchInboundMessage (net : Inet) (md5 : Bytes → Bytes) (c : TurnClient)
    (txn : TransactionId) (bytes : Bytes) : TurnClient × List TurnOutput :=
  if isChannelData bytes then (c, c.handleChannelData bytes)
  else
    match parseStun net bytes with
    | none => (c, [])
    | some m =>
      if m.msgType = turnAllocateError then c.handleAllocateError md5 txn m
      else if m.msgType = turnAllocateResponse then c.handleAllocateResponse m
      else if m.msgType = turnDataIndication then (c, handleDataIndication m)
      else (c, [])

/-- `try_take_stream_frame`: the first complete frame and the bytes after it. -/
def tryTakeStreamFrame (buffer : Bytes) : Option (Bytes × Bytes) :=
  let len := read16 buffer
  if buffer.length < 2 ∨ buffer.length < 2 + len then none
  else some ((buffer.drop 2).take len, buffer.drop (2 + len))

/-- Each frame takes at least two bytes off the buffer. `txn fuel` is the random id a
message sent in reply to that frame gets. -/
def drainFrames (net : Inet) (md5 : Bytes → Bytes) (txn : ℕ → TransactionId) :
    ℕ → TurnClient → TurnClient × List TurnOutput
  | 0, c => (c, [])
  | fuel + 1, c =>
    match tryTakeStreamFrame c.rxBuffer with
    | none => (c, [])
    | some (frame, rest) =>
      let (c, out) := dispatchInboundMessage net md5 { c with rxBuffer := rest } (txn fuel) frame
      let (c, more) := drainFrames net md5 txn fuel c
      (c, out ++ more)

def onInbound (net : Inet) (md5 : Bytes → Bytes) (c : TurnClient) (txn : ℕ → TransactionId)
    (bytes : Bytes) : TurnClient × List TurnOutput :=
  if c.streamFraming then
    let c := { c with rxBuffer := c.rxBuffer ++ bytes }
    drainFrames net md5 txn c.rxBuffer.length c
  else dispatchInboundMessage net md5 c (txn 0) bytes

/-! ### Which operations only talk to the server -/

theorem toServer_requests {b : StunBuilder} : ∀ o ∈ c.toServer b, ∃ b, o = .toServer b := by
  unfold toServer
  split_ifs <;> simp

theorem allocate_requests : ∀ o ∈ c.allocate txn, ∃ b, o = .toServer b := by
  unfold allocate
  split_ifs
  · simp
  · exact toServer_requests

theorem createPermission_requests {ip : Bytes} :
    ∀ o ∈ (createPermission net c txn ip).2, ∃ b, o = .toServer b := by
  unfold createPermission
  split_ifs
  · simp
  · exact toServer_requests

theorem bindChannel_requests {peer : Endpoint} :
    ∀ o ∈ (bindChannel net c txn peer).2, ∃ b, o = .toServer b := by
  unfold bindChannel
  split_ifs
  · simp
  · simp
  · dsimp only
    split_ifs
    · simp
    · exact toServer_requests

theorem close_requests : ∀ o ∈ (c.close txn).2, ∃ b, o = .toServer b := by
  unfold close
  split_ifs
  · simp
  · exact toServer_requests

end TurnClient

end LinkIce
