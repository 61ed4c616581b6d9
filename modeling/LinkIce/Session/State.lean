import LinkIce.Candidate
import LinkIce.Lib.Mutex
import LinkIce.PathMtu
import LinkIce.Turn.Client

/-! State of one ICE session, the work queued on its strand, and the log of what
it does. -/
namespace LinkIce
open Stun

inductive SessionState
  | new | gathering | waitingRemote | checking | connected | failed
  deriving DecidableEq, Repr

inductive PairState
  | frozen | waiting | inProgress | succeeded | failed
  deriving DecidableEq, Repr

/-- The integer fields are those `apply_config` bounds below by zero; a STUN server is what
`split_stun_host_port` makes of its text. -/
structure IceConfig where
  stunServers : List (Option Endpoint) := []
  turn : TurnConfig := {}
  turnServers : List TurnConfig := []
  consentMaxFailures : ℕ := 3
  turnBackupIntervalS : ℕ := 30
  turnFailoverMinIntervalS : ℕ := 60
  consentMaxRecovery : ℕ := 3
  checkIntervalMs : ℕ := 50
  maxCheckRetries : ℕ := 4
  aggressiveNomination : Bool := false
  candidateFilter : CandidateFilter := {}
  mdnsObfuscateHostCandidates : Bool := false
  pathMtu : ℕ := 1200
  pmtuActiveProbing : Bool := true
  pmtuSearchSteps : List ℤ := [1200, 1400, 1500, 4000, 9000]
  liteMode : Bool := false
  symmetricPortPredictionEnabled : Bool := true
  symmetricPortPredictionAttempts : ℕ := 8
  tcpCandidatesEnabled : Bool := true
  autoRestartOnConsentLoss : Bool := true
  autoRestartMaxAttempts : ℕ := 3
  autoRestartBackoffMs : ℕ := 500
  nominationWaitMs : ℕ := 500
  preferTurnTcp : Bool := false
  orderedDelivery : Bool := false

def checkConcurrencyCap : ℕ := 10

structure CheckPair where
  loc : Candidate
  rem : Candidate
  priority : ℕ
  retries : ℕ := 0
  state : PairState := .frozen
  valid : Bool := false
  nomineeCheckSent : Bool := false
  triggered : Bool := false
  pendingNomination : Bool := false
  txnId : TransactionId
  txnSendUs : ℕ := 0
  transportType : TransportType := .udp
  deriving DecidableEq, Repr

inductive Payload
  | stun (b : StunBuilder)
  | raw (bytes : Bytes)
  deriving DecidableEq, Repr

def Payload.bytes (H : Hmac) : Payload → Bytes
  | stun b => b.build H
  | raw bs => bs

inductive NominationOrigin
  | checkResponse (txn : TransactionId)
  | deferred (txn : TransactionId)
  | useCandidate
  deriving DecidableEq, Repr

inductive FailureOrigin
  | checksExhausted | nominationWait | consentLoss
  deriving DecidableEq, Repr

/-- What the link reads from the session when `on_gathered` is called. -/
structure LocalDescription where
  controlling : Bool
  ufrag : Bytes
  pwd : Bytes
  candidates : List Candidate
  lite : Bool
  symmetric : Bool
  deriving DecidableEq, Repr

/-- The log records, newest first, every observable action of the session and the
calls that the properties speak about. -/
inductive Effect
  | setState (st : SessionState)
  | udpSend (cid : Cid) (p : Payload)
  | tcpSend (cid : Cid) (p : Payload)
  | relaySend (ep : Endpoint) (p : Payload)
  | turnSend (carrier : CarrierKind) (cid : Cid) (b : StunBuilder)
  | onGathered (d : LocalDescription)
  | onConnected (ep : Endpoint)
  | onFailed
  | onData (bytes : Bytes)
  | onAutoRestart (attempt maxAttempts : ℕ)
  | requestReceived (txn : TransactionId) (useCandidate : Bool) (ep : Endpoint) (cid : Cid)
      (tx : TransportType) (relay : Bool)
  | checkSucceeded (p : CheckPair)
  | nominated (origin : NominationOrigin) (controlling : Bool) (ep : Endpoint) (relay : Bool)
      (cid : Cid) (tx : TransportType)
  | failedBy (origin : FailureOrigin) (prev : SessionState) (controlling : Bool)
      (checkList : List CheckPair) (recoveries restarts : ℕ)
  | restarted
  | keepaliveSent (txn : TransactionId)
  | mtuProbeSent (txn : TransactionId)
  | consentReset
  | consentLost
  deriving DecidableEq, Repr

def Effect.isNomination : Effect → Bool
  | nominated .. => true
  | _ => false

/-- Work waiting to run on the strand: posted closures, timers with the generation
they were armed under, and mDNS queries without an answer. -/
inductive Task
  | stunProbes
  | turnAttempt
  | turnAllocated (c : Candidate)
  | backupAllocated (cfg : TurnConfig)
  | relayStun (ep : Endpoint) (bytes : Bytes)
  | closeTeardown
  | gatherTimeout (gen : ℕ)
  | gatherFallback (gen : ℕ)
  | turnAllocateTimeout (gen : ℕ)
  | turnBackupTick (gen : ℕ)
  | checkTick (gen : ℕ)
  | nominationWait (gen : ℕ)
  | keepalive (gen : ℕ)
  | pmtuTimeout (gen : ℕ)
  | tcpConnectTimeout (cid : Cid)
  | mdnsResolve (idx : ℕ) (hostname : Bytes)
  deriving DecidableEq, Repr

structure Interface where
  up : Bool
  loopback : Bool
  family : AddressFamily
  addr : Block 16
  linkLocal : Bool
  deriving DecidableEq, Repr

/-- Everything the session asks of the outside. The argument of type `ℕ` is the number
of such requests made so far, so that two requests may be answered differently; a
connection id of zero is a refused connect. -/
structure Env where
  net : Inet
  md5 : Bytes → Bytes
  txnId : ℕ → TransactionId
  ufrag : ℕ → Bytes
  pwd : ℕ → Bytes
  uuid : ℕ → Bytes
  clock : ℕ → ℕ
  connect : CarrierKind → ℕ → Endpoint → Cid
  listenPort : ℕ → ℕ
  interfaces : ℕ → Option (List Interface)
  portmap : ℕ → Option Endpoint
  danglingPort : ℕ → ℕ

structure EndpointInfo where
  ep : Endpoint
  transport : TransportType
  deriving DecidableEq, Repr

/-- A mapping on the router. The protocol is always UDP. -/
structure PortMapping where
  intPort : ℕ
  ext : Endpoint
  deriving DecidableEq, Repr

/-- What the session asked of the port mapper. A request that succeeds is recorded with the
mapping that the session remembers then, and whether it will remember the new one. -/
inductive PortmapCall
  | obtained (intPort : ℕ) (slot : Option PortMapping) (kept : Bool)
  | released (intPort : ℕ)
  deriving DecidableEq, Repr

/-- The arguments of `on_nominated`. -/
structure NominatedPath where
  ep : Endpoint
  relay : Bool
  cid : Cid
  tx : TransportType
  deriving DecidableEq, Repr

/-- A path-MTU probe; `outcome` is whether it was answered in time, once that is known. -/
structure MtuTrial where
  path : NominatedPath
  size : ℕ
  outcome : Option Bool := none
  deriving DecidableEq, Repr

/-- `turnCfg` and `turnServers` are the two configuration fields that the session itself
rewrites; `mu` is `local_state_mu_`. `relayChecks` records every check sent through the
relay, with the addresses the client had asked a permission for by then. `handedData` has the
payloads given to `send_on_strand`, `portmapCalls` the requests to the port mapper and
`mtuTrials` the path-MTU probes, each newest first. -/
structure Session where
  cfg : IceConfig
  hasCarrier : Bool
  hasCarrierTcp : Bool
  hasCarrierTls : Bool
  hasTimer : Bool
  hasMdns : Bool
  hasPortmap : Bool
  state : SessionState := .new
  controlling : Bool
  tiebreaker : ℕ
  localUfrag : Bytes
  localPwd : Bytes
  localCandidates : List Candidate := []
  remoteUfrag : Bytes := []
  remotePwd : Bytes := []
  remoteCandidates : List Candidate := []
  checkList : List CheckPair := []
  currentCheck : ℕ := 0
  nominatedEp : Endpoint := ⟨[], 0⟩
  usesRelay : Bool := false
  rttEwmaUs : ℕ := 0
  nominatedLocalType : CandidateType := .host
  nominatedRemoteType : CandidateType := .host
  localPort : ℕ := 0
  carrierInitialized : Bool := false
  endpointToCid : AList (fun _ : Endpoint => Cid) := ∅
  cidToEndpointUdp : AList (fun _ : Cid => EndpointInfo) := ∅
  cidToEndpointTcp : AList (fun _ : Cid => EndpointInfo) := ∅
  relayEndpointToCid : AList (fun _ : Endpoint => Cid) := ∅
  relayCids : List Cid := []
  nextRelayCid : Cid := 0xC000000000000000
  tcpRxBuffers : AList (fun _ : Cid => Bytes) := ∅
  nominatedCid : Cid := 0
  nominatedTransport : TransportType := .udp
  pendingAppData : List Bytes := []
  pendingStunProbes : List TransactionId := []
  consentMissed : ℕ := 0
  consentRecoveryAttempts : ℕ := 0
  autoRestartAttempts : ℕ := 0
  autoRestartLast : ℕ := 0
  turnCfg : TurnConfig
  turnServers : List TurnConfig
  turn : Option TurnClient := none
  turnAttemptIdx : ℕ := 0
  turnBackups : List TurnConfig := []
  turnBackupProbe : Option TurnClient := none
  turnBackupProbeIdx : ℕ := 0
  turnLastFailover : ℕ := 0
  nominationWaitArmed : Bool := false
  mdnsLocalHostname : Bytes := []
  nomineeSelected : Bool := false
  pendingNomEp : Endpoint := ⟨[], 0⟩
  pendingNomRelay : Bool := false
  pendingNomCid : Cid := 0
  pendingNomTx : TransportType := .udp
  remoteEndOfCandidates : Bool := false
  gatheredSignalFired : Bool := false
  stunGathered : Bool := false
  turnGathering : Bool := false
  peerSymmetric : Bool := false
  symmetricStride : ℕ := 0
  firstObservedSrflxPort : Option ℕ := none
  portmapMapping : Option PortMapping := none
  pmtuProbe : Option PathMtuProbe := none
  pmtuInflight : Option TransactionId := none
  effectiveMtu : ℕ
  sendDataSeq : ℕ := 0
  recvDataSeq : ℕ := 0
  recvReorderBuf : List (ℕ × Bytes) := []
  checkGen : ℕ := 0
  keepaliveGen : ℕ := 0
  gatherGen : ℕ := 0
  nominationWaitGen : ℕ := 0
  turnAllocateGen : ℕ := 0
  turnBackupGen : ℕ := 0
  pmtuProbeGen : ℕ := 0
  mu : Mutex := .free
  draws : ℕ := 0
  queue : List Task := []
  log : List Effect := []
  relayChecks : List (Endpoint × List Bytes) := []
  handedData : List Bytes := []
  portmapCalls : List PortmapCall := []
  mtuTrials : List MtuTrial := []

namespace Session

def emit (e : Effect) (s : Session) : Session := { s with log := e :: s.log }

def post (t : Task) (s : Session) : Session := { s with queue := t :: s.queue }

def drawn (s : Session) : Session := { s with draws := s.draws + 1 }

def nominatedPath (s : Session) : NominatedPath where
  ep := s.nominatedEp
  relay := s.usesRelay
  cid := s.nominatedCid
  tx := s.nominatedTransport

def setState (st : SessionState) (s : Session) : Session :=
  ({ s with state := st } : Session).emit (.setState st)

def localDescription (s : Session) : LocalDescription where
  controlling := s.controlling
  ufrag := s.localUfrag
  pwd := s.localPwd
  candidates := s.localCandidates
  lite := s.cfg.liteMode
  symmetric := s.symmetricStride ≠ 0

def onGathered (s : Session) : Session := s.emit (.onGathered s.localDescription)

def locked (f : Session → Session) (s : Session) : Session :=
  let t := f { s with mu := s.mu.lock }
  { t with mu := t.mu.unlock }

end Session

end LinkIce
