import LinkIce.Session.Signal

/-! Inbound STUN: check responses, binding requests, triggered checks and the
dispatcher with its integrity gate. -/
namespace LinkIce
open Stun

namespace Session

/-- The round-trip estimate moves by one eighth of each sample. -/
def nextRtt (cur sample : ℕ) : ℕ := if cur = 0 then sample else (cur * 7 + sample) % 2 ^ 64 / 8

def sampleRtt (env : Env) (p : CheckPair) (s : Session) : Session :=
  if p.txnSendUs = 0 then s
  else
    { s.drawn with
      rttEwmaUs := nextRtt s.rttEwmaUs (elapsed (env.clock s.draws) p.txnSendUs) }

def prflxCandidate (net : Inet) (mapped : MappedAddress) : Candidate :=
  { Candidate.setAddress net { type := .prflx } mapped.ip with
    port := mapped.port
    priority := computePriority .prflx 65535 1 }

/-- A mapped address other than the local one is a new peer-reflexive candidate. -/
def learnPrflx (env : Env) (m : StunMessage) (p : CheckPair) (s : Session) : Session :=
  match m.xorMapped with
  | none => s
  | some mapped =>
    if mapped.ip ≠ p.loc.addressStr env.net ∨ mapped.port ≠ p.loc.port then
      s.pushLocal (prflxCandidate env.net mapped)
    else s

def succeedPair (i : ℕ) (p : CheckPair) (s : Session) : Session :=
  ((s.modifyPair i fun p => { p with valid := true, state := .succeeded }).unfreezeSiblings
    p.loc.foundation p.rem.foundation).emit (.checkSucceeded p)

def nomineeCid (env : Env) (p : CheckPair) (s : Session) : Cid × Session :=
  let ep := p.endpoint env.net
  if transportIsTcp p.transportType then s.ensureRemoteTcpCid env ep
  else if p.loc.type = .relay ∧ s.turnAllocated then s.relayCidForEndpoint ep
  else s.ensureRemoteCid env ep

def nominatePair (env : Env) (p : CheckPair) (s : Session) : Session :=
  let relay := p.loc.type = .relay || p.rem.type = .relay
  let r := s.nomineeCid env p
  r.2.onNominated env (.checkResponse p.txnId) (p.endpoint env.net) relay r.1 p.transportType

/-- The deferred nomination uses the one slot that the last USE-CANDIDATE filled. -/
def nominateDeferred (env : Env) (i : ℕ) (p : CheckPair) (s : Session) : Session :=
  (s.modifyPair i fun p => { p with pendingNomination := false }).onNominated env
    (.deferred p.txnId) s.pendingNomEp s.pendingNomRelay s.pendingNomCid s.pendingNomTx

/-- The nomination decision after pair `i`, which was `p` before, has succeeded. -/
def onPairSucceeded (env : Env) (i : ℕ) (p : CheckPair) (s : Session) : Session :=
  if !s.controlling then (if p.pendingNomination then s.nominateDeferred env i p else s)
  else if s.cfg.aggressiveNomination || p.nomineeCheckSent then s.nominatePair env p
  else if !s.nomineeSelected && !p.valid then s.pickNominee env
  else s

def pairOf (txn : TransactionId) (s : Session) : Option (ℕ × CheckPair) :=
  (s.checkList.findIdx? (·.txnId = txn)).bind fun i => s.checkList[i]?.map (i, ·)

def noteCandidateTypes (p : CheckPair) (s : Session) : Session :=
  { s with nominatedLocalType := p.loc.type, nominatedRemoteType := p.rem.type }

/-- What a response teaches besides the success of its pair. -/
def noteResponse (env : Env) (m : StunMessage) (p : CheckPair) (s : Session) : Session :=
  ((s.sampleRtt env p).noteCandidateTypes p).learnPrflx env m p

def recordSuccess (env : Env) (m : StunMessage) (i : ℕ) (p : CheckPair) (s : Session) : Session :=
  (s.noteResponse env m p).succeedPair i p

def handleCheckResponse (env : Env) (m : StunMessage) (s : Session) : Session :=
  if s.state ≠ .checking then s
  else
    match s.pairOf m.txnId with
    | none => s
    | some (i, p) => (s.recordSuccess env m i p).onPairSucceeded env i p

def reply (fromTcp : Bool) (cid : Cid) (ep : Endpoint) (b : StunBuilder) (s : Session) : Session :=
  if fromTcp then s.carrierSend true cid (.stun b)
  else if s.turn.isSome ∧ cid ∈ s.relayCids then
    if ep.ip = [] then s else s.emit (.relaySend ep (.stun b))
  else s.carrierSend false cid (.stun b)

def endpointOf (fromTcp : Bool) (cid : Cid) (s : Session) : Endpoint :=
  let info := if fromTcp then s.cidToEndpointTcp.lookup cid else s.cidToEndpointUdp.lookup cid
  (info.map (·.ep)).getD ⟨[], 0⟩

def roleConflictReason : Bytes :=
  [0x52, 0x6F, 0x6C, 0x65, 0x20, 0x43, 0x6F, 0x6E, 0x66, 0x6C, 0x69, 0x63, 0x74]

def roleConflictMessage (s : Session) (txn : TransactionId) : StunBuilder :=
  (((⟨bindingError, txn, []⟩ : StunBuilder).addErrorCode 487 roleConflictReason).addIntegrity
    s.localPwd).addFingerprint

def responseMessage (s : Session) (txn : TransactionId) : StunBuilder :=
  ((⟨bindingResponse, txn, []⟩ : StunBuilder).addIntegrity s.localPwd).addFingerprint

def sameRole (s : Session) (m : StunMessage) : Bool :=
  (m.iceControlling.isSome && s.controlling) || (m.iceControlled.isSome && !s.controlling)

def senderTiebreaker (m : StunMessage) : ℕ := m.iceControlling.getD (m.iceControlled.getD 0)

def nominationTransport (fromTcp : Bool) : TransportType := if fromTcp then .tcpActive else .udp

/-- A request on this connection came through our TURN allocation. -/
def arrivedByRelay (fromTcp : Bool) (cid : Cid) (s : Session) : Bool :=
  !fromTcp && decide (cid ∈ s.relayCids)

def nominationPair (env : Env) (ep : Endpoint) (tx : TransportType) (s : Session) : Option ℕ :=
  s.checkList.findIdx? fun p => p.endpoint env.net = ep ∧ p.transportType = tx

def stashNomination (ep : Endpoint) (relay : Bool) (cid : Cid) (tx : TransportType) (s : Session) :
    Session :=
  { s with
    pendingNomEp := ep
    pendingNomRelay := relay
    pendingNomCid := cid
    pendingNomTx := tx }

/-- The pair is released if frozen and nominated once its check succeeds. -/
def markPendingNomination (i : ℕ) (s : Session) : Session :=
  s.modifyPair i fun p =>
    { p with
      state := if p.state = .frozen then .waiting else p.state
      pendingNomination := true }

def onUseCandidate (env : Env) (ep : Endpoint) (cid : Cid) (fromTcp : Bool) (s : Session) :
    Session :=
  let tx := nominationTransport fromTcp
  let relay := s.arrivedByRelay fromTcp cid
  match s.nominationPair env ep tx with
  | none => (s.stashNomination ep relay cid tx).runNextCheck env
  | some i =>
    if s.checkList[i]?.any (·.state = .succeeded) then
      s.onNominated env .useCandidate ep relay cid tx
    else ((s.markPendingNomination i).stashNomination ep relay cid tx).runNextCheck env

/-- The pair of a triggered check. It is a UDP pair whatever the request came over. -/
def triggeredPair (env : Env) (l rem : Candidate) (s : Session) : CheckPair :=
  let p : CheckPair :=
    { loc := l.withFoundation env.net
      rem := rem.withFoundation env.net
      priority := pairPriority l.priority rem.priority s.controlling
      state := .inProgress
      triggered := true
      txnId := env.txnId s.draws }
  { p with
    pendingNomination :=
      !s.controlling && decide (s.pendingNomEp.ip ≠ [] ∧ p.endpoint env.net = s.pendingNomEp) }

def triggeredRemote (net : Inet) (ep : Endpoint) : Candidate :=
  { Candidate.setAddress net {} ep.ip with
    port := ep.port
    type := .prflx
    priority := computePriority .prflx 65535 1 }

def pushTriggered (env : Env) (p : CheckPair) (s : Session) : Session :=
  let s := { s.drawn with checkList := s.checkList ++ [p] }
  if s.state = .checking ∨ s.state = .connected then s.sendCheck env (s.checkList.length - 1) else s

def maybeTriggerCheckFromPeer (env : Env) (ep : Endpoint) (s : Session) : Session :=
  if ep.ip = [] ∨ s.localCandidates = [] ∨ s.cfg.liteMode then s
  else if s.checkList.any fun p => p.endpoint env.net = ep then s
  else
    let rem := triggeredRemote env.net ep
    match s.localCandidates.find? fun l => l.family = rem.family with
    | none => s
    | some l => s.pushTriggered env (s.triggeredPair env l rem)

def answerRequest (m : StunMessage) (cid : Cid) (fromTcp : Bool) (s : Session) : Session :=
  let ep := s.endpointOf fromTcp cid
  let s := s.emit (.requestReceived m.txnId m.useCandidate ep cid (nominationTransport fromTcp)
    (s.arrivedByRelay fromTcp cid))
  s.reply fromTcp cid ep (s.responseMessage m.txnId)

def acceptRequest (env : Env) (m : StunMessage) (cid : Cid) (fromTcp : Bool) (s : Session) :
    Session :=
  let ep := s.endpointOf fromTcp cid
  let s := s.answerRequest m cid fromTcp
  let s := if m.useCandidate ∧ !s.controlling ∧ ep.ip ≠ [] then s.onUseCandidate env ep cid fromTcp
    else s
  s.maybeTriggerCheckFromPeer env ep

def rejectRequest (m : StunMessage) (cid : Cid) (fromTcp : Bool) (s : Session) : Session :=
  s.reply fromTcp cid (s.endpointOf fromTcp cid) (s.roleConflictMessage m.txnId)

def handleBindingRequest (env : Env) (m : StunMessage) (cid : Cid) (fromTcp : Bool) (s : Session) :
    Session :=
  if s.sameRole m then
    let r := s.handleRoleConflict env m.iceControlling.isSome (senderTiebreaker m)
    if r.1 then r.2.acceptRequest env m cid fromTcp else r.2.rejectRequest m cid fromTcp
  else s.acceptRequest env m cid fromTcp

/-- Any error but a role conflict fails the pair it answers. -/
def handleErrorResponse (env : Env) (m : StunMessage) (s : Session) : Session :=
  if m.errorCode = some 487 then s.flipRole env
  else
    match s.pairOf m.txnId with
    | none => s
    | some (i, _) => s.failPair i

def handleSuccessResponse (env : Env) (m : StunMessage) (s : Session) : Session :=
  if s.pmtuInflight = some m.txnId then s.onPathMtuAck env
  else if s.state = .connected then s.refreshConsent
  else s.handleCheckResponse env m

def onStun (env : Env) (m : StunMessage) (cid : Cid) (fromTcp : Bool) (s : Session) : Session :=
  if m.msgType = bindingError then s.handleErrorResponse env m
  else if m.msgType = bindingResponse then s.handleSuccessResponse env m
  else if m.msgType = bindingRequest then s.handleBindingRequest env m cid fromTcp
  else s

/-- Responses are signed with the key of the request they answer. -/
def integrityKey (s : Session) (m : StunMessage) : Bytes :=
  if m.msgType = bindingResponse ∨ m.msgType = bindingError then s.remotePwd else s.localPwd

/-- The gate every peer message has to pass. -/
def authenticated (H : Hmac) (s : Session) (m : StunMessage) (data : Bytes) : Bool :=
  m.hasIntegrity && verifyIntegrity H data (s.integrityKey m)

def isGatherResponse (s : Session) (m : StunMessage) : Bool :=
  m.msgType = bindingResponse && decide (m.txnId ∈ s.pendingStunProbes)

def sourceTransport (fromTcp : Bool) (cid : Cid) (s : Session) : TransportType :=
  let info := if fromTcp then s.cidToEndpointTcp.lookup cid else s.cidToEndpointUdp.lookup cid
  (info.map (·.transport)).getD .udp

def onAppData (fromTcp : Bool) (data : Bytes) (s : Session) : Session :=
  if s.state ≠ .connected then s
  else if s.cfg.orderedDelivery && !fromTcp then s.deliverInOrder data
  else s.emit (.onData data)

def isTurnServer (c : Option TurnClient) (cid : Cid) : Bool :=
  c.any fun c => c.serverCid != 0 && cid == c.serverCid

def onCarrierData (H : Hmac) (env : Env) (cid : Cid) (fromTcp : Bool) (data : Bytes) (s : Session) :
    Session :=
  if isTurnServer s.turn cid then s.turnOnInbound env data
  else if isTurnServer s.turnBackupProbe cid then s.turnBackupOnInbound env data
  else
    match parseStun env.net data with
    | none => s.onAppData fromTcp data
    | some m =>
      if s.isGatherResponse m then s.handleGatherResponse env m (s.sourceTransport fromTcp cid)
      else if s.authenticated H m data then s.onStun env m cid fromTcp
      else s

/-- Relayed STUN is dispatched under the synthetic id of its sender. -/
def onRelayStun (H : Hmac) (env : Env) (ep : Endpoint) (data : Bytes) (s : Session) : Session :=
  let r := s.relayCidForEndpoint ep
  r.2.onCarrierData H env r.1 false data

def tcpAppend (cid : Cid) (bytes : Bytes) (s : Session) : Session :=
  { s with
    tcpRxBuffers := s.tcpRxBuffers.insert cid ((s.tcpRxBuffers.lookup cid).getD [] ++ bytes) }

def tcpFrame (H : Hmac) (env : Env) (cid : Cid) (s : Session) : Session :=
  match (s.tcpRxBuffers.lookup cid).bind TurnClient.tryTakeStreamFrame with
  | none => s
  | some (frame, rest) =>
    onCarrierData H env cid true frame { s with tcpRxBuffers := s.tcpRxBuffers.insert cid rest }

end Session

end LinkIce
