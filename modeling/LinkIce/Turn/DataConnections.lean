import LinkIce.Stun.AddressText
import LinkIce.Turn.Streams

/-! Data connections of a TCP allocation (RFC 6062). A Connect response or a
ConnectionAttempt indication opens a carrier connection, which talks STUN until its
ConnectionBind is answered and carries raw bytes afterwards. -/
namespace LinkIce
open Stun List

structure PendingBind where
  connectionId : ℕ
  peer : Endpoint
  deriving DecidableEq, Repr

/-- What the client hands to its carriers and callbacks. The connection id of `data` is not
passed to `data_cb_`. -/
inductive DataOutput
  | control (o : TurnOutput)
  | connectionAttempt (peer : Endpoint) (connectionId : ℕ)
  | toData (cid : Cid) (b : StunBuilder)
  | bound (connectionId : ℕ) (cid : Cid) (peer : Endpoint)
  | data (cid : Cid) (peer : Endpoint) (payload : Bytes)
  deriving DecidableEq, Repr

/-- A TURN client with its RFC 6062 state; `log` holds the outputs, newest first. -/
structure TurnTcpClient extends TurnClient where
  pendingConnects : AList (fun _ : TransactionId => Endpoint) := ∅
  pendingBinds : AList (fun _ : Cid => PendingBind) := ∅
  dataConnRxBuffers : AList (fun _ : Cid => Bytes) := ∅
  dataConnections : AList (fun _ : ℕ => Cid) := ∅
  boundPeers : AList (fun _ : Cid => Endpoint) := ∅
  log : List DataOutput := []

/-- What can happen to the client. A control message comes with the random id of a reply
and with what `data_carrier_factory_` returns; `none` stands for a missing factory. -/
inductive DataEvent
  | connectToPeer (txn : TransactionId) (peer : Endpoint)
  | message (txn : TransactionId) (factory : Option Cid) (bytes : Bytes)
  | inbound (cid : Cid) (bytes : Bytes)

namespace TurnTcpClient

variable (net : Inet) (md5 : Bytes → Bytes)

def emit (c : TurnTcpClient) (o : DataOutput) : TurnTcpClient := { c with log := o :: c.log }

def emitControl (c : TurnTcpClient) (os : List TurnOutput) : TurnTcpClient :=
  { c with log := (os.map DataOutput.control).reverse ++ c.log }

/-- Requests are signed once the server has told its realm. -/
def sign (c : TurnTcpClient) (b : StunBuilder) : StunBuilder :=
  if c.realm = [] then b else c.addCredentials b

def connectToPeer (c : TurnTcpClient) (txn : TransactionId) (peer : Endpoint) : TurnTcpClient :=
  if c.cfg.requestedTransport ≠ requestedTransportTcp then c
  else
    let b := c.sign
      (StunBuilder.addXorPeerAddress net ⟨turnConnectRequest, txn, []⟩ peer.ip peer.port)
    let c := { c with pendingConnects := c.pendingConnects.insert txn peer }
    c.emitControl (c.toServer b)

def sendFramedOnDataCid (c : TurnTcpClient) (cid : Cid) (b : StunBuilder) : TurnTcpClient :=
  if cid = 0 ∨ 0xFFFF < 20 + b.attrsSize then c else c.emit (.toData cid b)

def openDataConnection (c : TurnTcpClient) (txn : TransactionId) (factory : Option Cid)
    (connectionId : ℕ) (peer : Endpoint) : TurnTcpClient :=
  match factory with
  | none => c
  | some cid =>
    if cid = 0 then c
    else
      let c := { c with pendingBinds := c.pendingBinds.insert cid ⟨connectionId, peer⟩ }
      c.sendFramedOnDataCid cid (c.sign
        (StunBuilder.addConnectionId ⟨turnConnectionBindRequest, txn, []⟩ connectionId))

def handleConnectResponse (c : TurnTcpClient) (txn : TransactionId) (factory : Option Cid)
    (m : StunMessage) : TurnTcpClient :=
  match m.connectionId, c.pendingConnects.lookup m.txnId with
  | some connectionId, some peer =>
    let c := { c with pendingConnects := c.pendingConnects.erase m.txnId }
    c.openDataConnection txn factory connectionId peer
  | _, _ => c

def handleConnectionAttempt (c : TurnTcpClient) (txn : TransactionId) (factory : Option Cid)
    (m : StunMessage) : TurnTcpClient :=
  match m.connectionId, m.xorPeer with
  | some connectionId, some a =>
    (c.emit (.connectionAttempt ⟨a.ip, a.port⟩ connectionId)).openDataConnection txn factory
      connectionId ⟨a.ip, a.port⟩
  | _, _ => c

def controlMessage (bytes : Bytes) : Option StunMessage :=
  if isChannelData bytes then none else parseStun net bytes

/-- `dispatch_inbound_message` with its RFC 6062 branches. -/
def dispatchInboundMessage (c : TurnTcpClient) (txn : TransactionId) (factory : Option Cid)
    (bytes : Bytes) : TurnTcpClient :=
  let r := c.toTurnClient.dispatchInboundMessage net md5 txn bytes
  let other := emitControl { c with toTurnClient := r.1 } r.2
  match controlMessage net bytes with
  | none => other
  | some m =>
    if m.msgType = turnConnectionAttemptIndication then c.handleConnectionAttempt txn factory m
    else if m.msgType = turnConnectResponse then c.handleConnectResponse txn factory m
    else other

def dispatchDataConnMessage (cid : Cid) (c : TurnTcpClient) (bytes : Bytes) : TurnTcpClient :=
  match parseStun net bytes with
  | none => c
  | some m =>
    if m.msgType = turnConnectionBindResponse then
      match c.pendingBinds.lookup cid with
      | none => c
      | some pb =>
        emit { c with
          pendingBinds := c.pendingBinds.erase cid
          dataConnections := c.dataConnections.insert pb.connectionId cid
          boundPeers := c.boundPeers.insert cid pb.peer
          dataConnRxBuffers := c.dataConnRxBuffers.erase cid } (.bound pb.connectionId cid pb.peer)
    else if m.msgType = turnConnectionBindError then
      { c with
        pendingBinds := c.pendingBinds.erase cid
        dataConnRxBuffers := c.dataConnRxBuffers.erase cid }
    else c

/-- All frames that `try_take_stream_frame` takes off a local buffer, and the tail. -/
def takeStreamFrames : ℕ → Bytes → List Bytes × Bytes
  | 0, buf => ([], buf)
  | fuel + 1, buf =>
    match TurnClient.tryTakeStreamFrame buf with
    | none => ([], buf)
    | some (frame, rest) =>
      let r := takeStreamFrames fuel rest
      (frame :: r.1, r.2)

def buffered (c : TurnTcpClient) (cid : Cid) : Bytes := (c.dataConnRxBuffers.lookup cid).getD []

/-- The loop drains a local buffer, so what it takes does not depend on what it has
dispatched. -/
def onDataConnectionInbound (c : TurnTcpClient) (cid : Cid) (bytes : Bytes) : TurnTcpClient :=
  match c.boundPeers.lookup cid with
  | some peer => c.emit (.data cid peer bytes)
  | none =>
    let buf := c.buffered cid ++ bytes
    let r := takeStreamFrames buf.length buf
    let c := r.1.foldl (dispatchDataConnMessage net cid)
      { c with dataConnRxBuffers := c.dataConnRxBuffers.erase cid }
    if r.2 = [] ∨ (c.boundPeers.lookup cid).isSome then c
    else { c with dataConnRxBuffers := c.dataConnRxBuffers.insert cid r.2 }

def step (c : TurnTcpClient) : DataEvent → TurnTcpClient
  | .connectToPeer txn peer => c.connectToPeer net txn peer
  | .message txn factory bytes => c.dispatchInboundMessage net md5 txn factory bytes
  | .inbound cid bytes => c.onDataConnectionInbound net cid bytes

/-! ### The stream of one connection -/

def payload (cid : Cid) (c : TurnTcpClient) : Bytes :=
  (c.log.reverse.filterMap fun
    | .data cid' _ bytes => if cid' = cid then some bytes else none
    | _ => none).flatten

def receiveData (cid : Cid) (c : TurnTcpClient) (chunks : List Bytes) : TurnTcpClient :=
  chunks.foldl (fun c bytes => c.onDataConnectionInbound net cid bytes) c

/-- The connection waits for the answer to its ConnectionBind; `buf` has arrived. -/
structure Awaits (c : TurnTcpClient) (cid : Cid) (pb : PendingBind) (buf : Bytes) : Prop where
  pending : c.pendingBinds.lookup cid = some pb
  unbound : c.boundPeers.lookup cid = none
  buffered : c.buffered cid = buf

def BindsWith (resp : Bytes) : Prop :=
  ∃ m, parseStun net resp = some m ∧ m.msgType = turnConnectionBindResponse

variable {net md5} {c : TurnTcpClient} {cid : Cid} {pb : PendingBind} {buf resp frame : Bytes}
  {bytes : Bytes} {peer : Endpoint} {chunks : List Bytes}

theorem openDataConnection_awaits {txn : TransactionId} {connectionId : ℕ} (hcid : cid ≠ 0)
    (hb : c.boundPeers.lookup cid = none) (hr : c.dataConnRxBuffers.lookup cid = none) :
    (c.openDataConnection txn (some cid) connectionId peer).Awaits cid ⟨connectionId, peer⟩ [] := by
  unfold openDataConnection sendFramedOnDataCid
  simp only [if_neg hcid]
  split_ifs
  · exact ⟨AList.lookup_insert _, hb, by simp [TurnTcpClient.buffered, hr]⟩
  · exact ⟨AList.lookup_insert _, hb, by simp [TurnTcpClient.buffered, emit, hr]⟩

theorem takeStreamFrames_of_none (fuel : ℕ)
    (h : TurnClient.streamReader.take buf = none) : takeStreamFrames fuel buf = ([], buf) := by
  cases fuel with
  | zero => rfl
  | succ fuel =>
    have ht : TurnClient.tryTakeStreamFrame buf = none := h
    rw [takeStreamFrames, ht]

theorem payload_append_data :
    payload cid (c.emit (.data cid peer bytes)) = payload cid c ++ bytes := by
  simp [payload, emit, filterMap_append]

theorem onDataConnectionInbound_bound (h : c.boundPeers.lookup cid = some peer) :
    c.onDataConnectionInbound net cid bytes = c.emit (.data cid peer bytes) := by
  rw [onDataConnectionInbound, h]

theorem receiveData_bound (h : c.boundPeers.lookup cid = some peer) :
    payload cid (receiveData net cid c chunks) = payload cid c ++ chunks.flatten := by
  induction chunks generalizing c with
  | nil => simp [receiveData]
  | cons bytes chunks ih =>
    have hb : (c.emit (.data cid peer bytes)).boundPeers.lookup cid = some peer := h
    have hih := ih hb
    rw [receiveData] at hih
    rw [receiveData, foldl_cons, onDataConnectionInbound_bound h, hih, payload_append_data,
      flatten_cons, append_assoc]

theorem dispatchDataConnMessage_bound (hp : c.pendingBinds.lookup cid = none) :
    (dispatchDataConnMessage net cid c bytes).pendingBinds.lookup cid = none ∧
      (dispatchDataConnMessage net cid c bytes).boundPeers = c.boundPeers ∧
      (dispatchDataConnMessage net cid c bytes).log = c.log := by
  unfold dispatchDataConnMessage
  cases parseStun net bytes with
  | none => exact ⟨hp, rfl, rfl⟩
  | some m =>
    dsimp only
    rw [hp]
    dsimp only
    split_ifs
    · exact ⟨hp, rfl, rfl⟩
    · exact ⟨AList.lookup_erase _ _, rfl, rfl⟩
    · exact ⟨hp, rfl, rfl⟩

theorem foldl_dispatch_bound (hp : c.pendingBinds.lookup cid = none) {frames : List Bytes} :
    (frames.foldl (dispatchDataConnMessage net cid) c).boundPeers = c.boundPeers ∧
      (frames.foldl (dispatchDataConnMessage net cid) c).log = c.log := by
  induction frames generalizing c with
  | nil => exact ⟨rfl, rfl⟩
  | cons frame frames ih =>
    obtain ⟨hp', hb, hl⟩ := dispatchDataConnMessage_bound hp
    obtain ⟨hb', hl'⟩ := ih hp'
    exact ⟨hb'.trans hb, hl'.trans hl⟩

theorem onDataConnectionInbound_unbound (h : c.boundPeers.lookup cid = none) :
    ∃ l, c.onDataConnectionInbound net cid bytes =
      { (takeStreamFrames (c.buffered cid ++ bytes).length (c.buffered cid ++ bytes)).1.foldl
          (dispatchDataConnMessage net cid)
          { c with dataConnRxBuffers := c.dataConnRxBuffers.erase cid } with
        dataConnRxBuffers := l } := by
  unfold onDataConnectionInbound
  rw [h]
  dsimp only
  split_ifs
  · exact ⟨_, rfl⟩
  · exact ⟨_, rfl⟩

theorem Awaits.partial (h : c.Awaits cid pb buf)
    (hf : TurnClient.streamReader.IsFrame resp frame) (hp : buf ++ bytes <+: frame)
    (hne : buf ++ bytes ≠ frame) :
    (c.onDataConnectionInbound net cid bytes).Awaits cid pb (buf ++ bytes) ∧
      payload cid (c.onDataConnectionInbound net cid bytes) = payload cid c := by
  have htake := takeStreamFrames_of_none (buf ++ bytes).length
    (FrameReader.take_eq_none_of_partial hf hp hne)
  unfold onDataConnectionInbound
  rw [h.unbound]
  dsimp only
  rw [h.buffered, htake]
  simp only [foldl_nil, h.unbound, Option.isSome_none, Bool.false_eq_true, or_false]
  split_ifs with hnil
  · refine ⟨⟨h.pending, h.unbound, ?_⟩, rfl⟩
    simp [TurnTcpClient.buffered, hnil]
  · refine ⟨⟨h.pending, h.unbound, ?_⟩, rfl⟩
    simp [TurnTcpClient.buffered]

/-- The chunk that completes the response binds the connection; nothing of it is payload. -/
theorem Awaits.completed (h : c.Awaits cid pb buf) {bytes rest : Bytes}
    (hf : TurnClient.streamReader.IsFrame resp frame) (hr : BindsWith net resp)
    (hb : buf ++ bytes = frame ++ rest) :
    (c.onDataConnectionInbound net cid bytes).boundPeers.lookup cid = some pb.peer ∧
      payload cid (c.onDataConnectionInbound net cid bytes) = payload cid c := by
  obtain ⟨m, hparse, htype⟩ := hr
  have htake : TurnClient.tryTakeStreamFrame (frame ++ rest) = some (resp, rest) :=
    hf.take_append rest
  have hlen := TurnClient.tryTakeStreamFrame_size htake
  obtain ⟨fuel, hfuel⟩ := Nat.exists_eq_succ_of_ne_zero (n := (frame ++ rest).length) (by omega)
  obtain ⟨l, hl⟩ := onDataConnectionInbound_unbound h.unbound
  rw [h.buffered, hb, hfuel, takeStreamFrames, htake, foldl_cons] at hl
  -- the response is dispatched first and takes the pending entry away
  have hpend : c.pendingBinds.lookup cid = some pb := h.pending
  set d := dispatchDataConnMessage net cid
    { c with dataConnRxBuffers := c.dataConnRxBuffers.erase cid } resp with hd
  have hbind : d.pendingBinds.lookup cid = none ∧ d.boundPeers.lookup cid = some pb.peer ∧
      payload cid d = payload cid c := by
    rw [hd]
    unfold dispatchDataConnMessage
    rw [hparse]
    dsimp only
    rw [if_pos htype, hpend]
    exact ⟨AList.lookup_erase _ _, AList.lookup_insert _, by simp [payload, emit]⟩
  obtain ⟨hgone, hbound, hpay⟩ := hbind
  obtain ⟨hb', hl'⟩ := foldl_dispatch_bound hgone
  constructor
  · rw [hl, ← hbound, ← hb']
  · rw [hl, ← hpay, payload, hl', payload]

/-- What arrives in the chunk that completes the response is lost, and nothing else. -/
theorem Awaits.payload_iff (h : c.Awaits cid pb buf) (hr : BindsWith net resp)
    (hf : TurnClient.streamReader.IsFrame resp frame) (hne : buf ≠ frame) (hp : buf <+: frame)
    {r : Bytes} (hs : buf ++ chunks.flatten = frame ++ r) :
    payload cid (receiveData net cid c chunks) = payload cid c ++ r ↔
      ∃ k, buf ++ (chunks.take k).flatten = frame := by
  induction chunks generalizing c buf with
  | nil =>
    rw [flatten_nil, append_nil] at hs
    have hlen := congrArg List.length hs
    rw [length_append] at hlen
    exact absurd (hp.eq_of_length_le (by omega)) hne
  | cons bytes chunks ih =>
    rw [flatten_cons, ← append_assoc] at hs
    have hstep : receiveData net cid c (bytes :: chunks) =
      receiveData net cid (c.onDataConnectionInbound net cid bytes) chunks := rfl
    rw [hstep]
    by_cases hlen : (buf ++ bytes).length < frame.length
    · -- the response is still incomplete
      have hpre : buf ++ bytes <+: frame :=
        prefix_of_prefix_length_le ⟨_, hs⟩ (prefix_append _ _) hlen.le
      have hneq : buf ++ bytes ≠ frame := fun he => hlen.ne (congrArg List.length he)
      obtain ⟨haw, hpay⟩ := h.partial hf hpre hneq
      have hih := ih haw hneq hpre hs
      rw [hpay] at hih
      rw [hih]
      constructor
      · rintro ⟨k, hk⟩
        exact ⟨k + 1, by rw [take_succ_cons, flatten_cons, ← append_assoc, hk]⟩
      · rintro ⟨k, hk⟩
        cases k with
        | zero => exact absurd (by simpa using hk) hne
        | succ k =>
          exact ⟨k, by rw [append_assoc, ← flatten_cons, ← take_succ_cons, hk]⟩
    · obtain ⟨rest, hrest⟩ : frame <+: buf ++ bytes :=
        prefix_of_prefix_length_le ⟨r, rfl⟩ ⟨_, hs⟩ (not_lt.mp hlen)
      obtain ⟨hbound, hpay⟩ := h.completed hf hr hrest.symm
      rw [receiveData_bound hbound, hpay, append_right_inj]
      have hr' : rest ++ chunks.flatten = r := by
        rw [← hrest, append_assoc, append_right_inj] at hs
        exact hs
      have hrestlen := congrArg List.length hrest
      rw [length_append] at hrestlen
      have hlost : chunks.flatten = r ↔ rest = [] := by
        rw [← hr']
        simp
      rw [hlost]
      constructor
      · rintro rfl
        exact ⟨1, by simpa using hrest.symm⟩
      · rintro ⟨k, hk⟩
        cases k with
        | zero => exact absurd (by simpa using hk) hne
        | succ k =>
          have hk' := congrArg List.length hk
          rw [take_succ_cons, flatten_cons, ← append_assoc, length_append] at hk'
          exact eq_nil_of_length_eq_zero (by omega)

/-- The stream of a data connection is its ConnectionBind response and then `r`. Exactly
`r` reaches `data_cb_` if and only if a chunk ends where the response ends. -/
theorem dataConnection_transparent_iff (h : c.Awaits cid pb []) (hr : BindsWith net resp)
    (hf : TurnClient.encodeStreamFrame resp = some frame) {chunks : List Bytes} {r : Bytes}
    (hs : chunks.flatten = frame ++ r) :
    payload cid (receiveData net cid c chunks) = payload cid c ++ r ↔
      ∃ k, (chunks.take k).flatten = frame := by
  have hframe := TurnClient.encodeStreamFrame_isFrame hf
  have hpos := TurnClient.streamReader.size_pos resp
  have hlen := hframe.length
  have hne : [] ≠ frame := by
    rintro rfl
    rw [length_nil] at hlen
    omega
  have hiff := h.payload_iff hr hframe hne List.nil_prefix (by rw [nil_append]; exact hs)
  simpa using hiff

def oneConnection : TurnTcpClient :=
  openDataConnection
    { carrier := .tcp, serverCid := 1, cfg := { requestedTransport := 6 }, backup := false }
    (Block.zero 12) (some 2) 7 ⟨Inet.dotted 10 0 0 2, 80⟩

def bindSuccess : Bytes := [1, 0x0B, 0, 0, 0x21, 0x12, 0xA4, 0x42] ++ List.replicate 12 0

private theorem bindSuccess_bindsWith : BindsWith .posix bindSuccess := by
  have hany : (parseStun .posix bindSuccess).any
      (fun m => m.msgType == turnConnectionBindResponse) = true := by
    decide +kernel
  obtain ⟨m, hm, ht⟩ := (Option.any_eq_true _ _).mp hany
  exact ⟨m, hm, eq_of_beq ht⟩

theorem payload_after_bind :
    payload 2 (receiveData .posix 2 oneConnection [[0], 20 :: bindSuccess, [5], [6]]) =
      payload 2 oneConnection ++ [5, 6] := by
  have hawaits : oneConnection.Awaits 2 ⟨7, ⟨Inet.dotted 10 0 0 2, 80⟩⟩ [] :=
    openDataConnection_awaits (by decide) rfl rfl
  have hframe : TurnClient.encodeStreamFrame bindSuccess = some (0 :: 20 :: bindSuccess) := by
    decide +kernel
  exact (dataConnection_transparent_iff hawaits bindSuccess_bindsWith hframe rfl).mpr ⟨2, rfl⟩

/-- The first byte of the peer comes with the response. -/
theorem payload_lost_at_bind :
    payload 2 (receiveData .posix 2 oneConnection [0 :: 20 :: bindSuccess ++ [5], [6]]) ≠
      payload 2 oneConnection ++ [5, 6] := by
  decide +kernel

end TurnTcpClient

end LinkIce
