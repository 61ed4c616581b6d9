import LinkIce.Session.Checks

/-! Candidate gathering: host, port mapping, STUN and TURN candidates. -/
namespace LinkIce
open Stun

namespace Session

def pushLocal (c : Candidate) : Session → Session :=
  locked fun s => { s with localCandidates := s.localCandidates ++ [c] }

def pushAllowed (c : Candidate) (type : CandidateType) (s : Session) : Session :=
  if candidateAllowed type c.family s.cfg.candidateFilter then s.pushLocal c else s

def bindCarrier (env : Env) (s : Session) : Session :=
  if s.hasCarrier && !s.carrierInitialized then
    { s.drawn with localPort := env.listenPort s.draws, carrierInitialized := true }
  else s

def hostCandidate (family : AddressFamily) (addr : Block 16) (port localPref : ℕ) : Candidate where
  type := .host
  family := family
  port := port
  priority := computePriority .host localPref 1
  addr := addr

def gatherInterface (s : Session) (i : Interface) : Session :=
  if i.loopback || !i.up then s
  else
    match i.family with
    | .ipv4 =>
      s.pushAllowed (hostCandidate .ipv4 (Block.ofBytes 16 (i.addr.1.take 4)) s.localPort 65535)
        .host
    | .ipv6 =>
      if i.linkLocal then s else s.pushAllowed (hostCandidate .ipv6 i.addr s.localPort 65534) .host
    | .other _ => s

def tcpVariants (c : Candidate) : List Candidate :=
  if c.type = .host ∧ c.transport = .udp then
    [{ c with transport := .tcpActive }, { c with transport := .tcpPassive },
      { c with transport := .tcpSimultaneousOpen }]
  else []

def gatherTcpHostCandidates (s : Session) : Session :=
  if !s.cfg.tcpCandidatesEnabled || !s.hasCarrierTcp || s.localPort = 0 then s
  else s.locked fun s =>
    { s with localCandidates := s.localCandidates ++ s.localCandidates.flatMap tcpVariants }

def localSuffix : Bytes := [0x2E, 0x6C, 0x6F, 0x63, 0x61, 0x6C]

/-- With obfuscation a single `.local` name stands for all host addresses. -/
def gatherHostCandidates (env : Env) (s : Session) : Session :=
  let s := s.bindCarrier env
  if s.localPort = 0 then s
  else if s.cfg.mdnsObfuscateHostCandidates && s.hasMdns then
    let name := env.uuid s.draws ++ localSuffix
    let c : Candidate :=
      { type := .hostMdns, family := .ipv4, port := s.localPort, hostname := name,
        priority := computePriority .hostMdns 65535 1 }
    pushAllowed c .host { s.drawn with mdnsLocalHostname := name }
  else
    match env.interfaces s.draws with
    | none => s.drawn
    | some ifs => (ifs.foldl gatherInterface s.drawn).gatherTcpHostCandidates

def portmapServer : Bytes := [0x70, 0x6F, 0x72, 0x74, 0x6D, 0x61, 0x70]

def portmapCandidate (net : Inet) (ext : Endpoint) : Candidate :=
  let c := Candidate.setAddress net { type := .srflx, port := ext.port } ext.ip
  { c with
    priority := computePriority .srflx 65534 2
    foundation := computeFoundation .srflx ext.ip portmapServer c.transport }

def portmapUsable (env : Env) (ext : Endpoint) (s : Session) : Bool :=
  let c := portmapCandidate env.net ext
  ext.port ≠ 0 && ext.ip ≠ [] && (c.family = .ipv4 || c.family = .ipv6) &&
    candidateAllowed c.type c.family s.cfg.candidateFilter

def noteObtained (kept : Bool) (s : Session) : Session :=
  { s with portmapCalls := .obtained s.localPort s.portmapMapping kept :: s.portmapCalls }

/-- The mapping is remembered only when its candidate is kept. -/
def gatherPortmap (env : Env) (s : Session) : Session :=
  if !s.hasPortmap || s.localPort = 0 || s.cfg.candidateFilter.hostOnly ||
      s.cfg.candidateFilter.relayOnly then s
  else
    match env.portmap s.draws with
    | none => s.drawn
    | some ext =>
      let kept := s.portmapUsable env ext
      let s := s.drawn.noteObtained kept
      if kept then
        { s.pushLocal (portmapCandidate env.net ext) with
          portmapMapping := some ⟨s.localPort, ext⟩ }
      else s

def releasePortmapMapping (s : Session) : Session :=
  if s.hasPortmap then
    match s.portmapMapping with
    | none => s
    | some m => { s with
        portmapMapping := none
        portmapCalls := .released m.intPort :: s.portmapCalls }
  else s

/-- The umbrella timeout is cancelled; a session that was gathering moves on. -/
def onGatheringComplete (env : Env) (s : Session) : Session :=
  let s := { s with pendingStunProbes := [], gatherGen := s.gatherGen + 1 }
  let s :=
    if s.state = .gathering then
      if s.remoteCandidates ≠ [] then s.startChecking env else s.setState .waitingRemote
    else s
  s.onGathered

/-- `if (stun_gathered_ || stun_servers.empty())` after TURN has settled. -/
def onTurnSettled (env : Env) (s : Session) : Session :=
  let s := { s with turnGathering := false }
  if s.stunGathered || s.cfg.stunServers.isEmpty then
    onGatheringComplete env { s with gatherGen := s.gatherGen + 1 }
  else s

/-- The carrier is TLS, then TCP, then UDP, as far as configured and present. -/
def buildTurnClient (env : Env) (cfg : TurnConfig) (backup : Bool) (s : Session) :
    Option TurnClient × Session :=
  let ep : Endpoint := ⟨cfg.server, cfg.port⟩
  let stream (kind : CarrierKind) : Option TurnClient × Session :=
    let cid := env.connect kind s.draws ep
    (if cid = 0 then none else some { carrier := kind, serverCid := cid, cfg, backup }, s.drawn)
  if cfg.tlsTransport && s.hasCarrierTls then stream .tls
  else if cfg.tcpTransport && s.hasCarrierTcp then stream .tcp
  else
    let r := s.ensureRemoteCid env ep
    (if r.1 = 0 then none else some { carrier := .udp, serverCid := r.1, cfg, backup }, r.2)

def dropTurn (env : Env) (s : Session) : Session := { s.turnClose env with turn := none }

def dropTurnBackupProbe (env : Env) (s : Session) : Session :=
  { s.turnBackupProbeClose env with turnBackupProbe := none }

def armTurnAllocateTimer (s : Session) : Session :=
  if s.hasTimer then
    ({ s with turnAllocateGen := s.turnAllocateGen + 1 } : Session).post
      (.turnAllocateTimeout (s.turnAllocateGen + 1))
  else s

def postNextTurnAttempt (s : Session) : Session :=
  ({ s with turnAttemptIdx := s.turnAttemptIdx + 1 } : Session).post .turnAttempt

/-- One attempt against the server at `turn_attempt_idx_`. -/
def attemptTurn (env : Env) (cfg : TurnConfig) (s : Session) : Session :=
  let cfg := { cfg with tcpTransport := cfg.tcpTransport || s.cfg.preferTurnTcp }
  if cfg.server = [] then s.postNextTurnAttempt
  else
    let r := s.buildTurnClient env cfg false
    match r.1 with
    | none => r.2.postNextTurnAttempt
    | some c =>
      (({ r.2.drawn with turn := some c } : Session).turnOutputs env c
        (c.allocate (env.txnId r.2.draws))).armTurnAllocateTimer

def tryNextTurnAttempt (env : Env) (s : Session) : Session :=
  let s := dropTurn env { s with turnAllocateGen := s.turnAllocateGen + 1 }
  match s.turnServers[s.turnAttemptIdx]? with
  | none => s.onTurnSettled env
  | some cfg => s.attemptTurn env cfg

def gatherRelay (env : Env) (s : Session) : Session :=
  if s.cfg.candidateFilter.hostOnly then s
  else
    let s := if s.turnServers = [] ∧ s.turnCfg.server ≠ [] then
      { s with turnServers := [s.turnCfg] } else s
    if s.turnServers = [] then s
    else tryNextTurnAttempt env { s with turnGathering := true, turnAttemptIdx := 0 }

def gatherCandidates (env : Env) (s : Session) : Session :=
  ((s.gatherHostCandidates env).gatherPortmap env).gatherRelay env

def gather (env : Env) (s : Session) : Session :=
  let s := (s.setState .gathering).gatherCandidates env
  if s.cfg.stunServers = [] then
    if s.turnGathering then s else s.onGatheringComplete env
  else s.post .stunProbes

def routeTo (env : Env) (tcp : Bool) (ep : Endpoint) (s : Session) : Cid × Session :=
  if tcp then s.ensureRemoteTcpCid env ep else s.ensureRemoteCid env ep

def probeServer (env : Env) (tcp : Bool) (s : Session) (server : Endpoint) : Session :=
  let r := s.routeTo env tcp server
  if r.1 = 0 then r.2
  else
    let txn := env.txnId r.2.draws
    ({ r.2.drawn with pendingStunProbes := s.pendingStunProbes ++ [txn] } : Session).carrierSend
      tcp r.1 (.stun ⟨bindingRequest, txn, []⟩)

def armGatherTimer (s : Session) : Session :=
  if s.hasTimer then
    ({ s with gatherGen := s.gatherGen + 1 } : Session).post (.gatherTimeout (s.gatherGen + 1))
  else s

/-- Servers that cannot be split into host and port are passed over. -/
def probeServers (env : Env) (tcp : Bool) (s : Session) : Session :=
  s.cfg.stunServers.reduceOption.foldl (fun s server => s.probeServer env tcp server) s

def startMultiStunProbes (env : Env) (s : Session) : Session :=
  let s := probeServers env false { s with pendingStunProbes := [] }
  if s.pendingStunProbes = [] then s.onGatheringComplete env else s.armGatherTimer

def gatherTcpServerReflexive (env : Env) (s : Session) : Session :=
  if !s.cfg.tcpCandidatesEnabled || !s.hasCarrierTcp then s else s.probeServers env true

def stunProbes (env : Env) (s : Session) : Session :=
  (s.startMultiStunProbes env).gatherTcpServerReflexive env

def onGatherTimeout (env : Env) (s : Session) : Session :=
  onGatheringComplete env { s with pendingStunProbes := [] }

def srflxCandidate (net : Inet) (mapped : MappedAddress) (tx : TransportType) : Candidate :=
  let c : Candidate :=
    { type := .srflx, port := mapped.port, priority := computePriority .srflx 65535 1
      transport := if transportIsTcp tx then .tcpActive else .udp }
  match net.pton4 mapped.ip with
  | some a => { c with family := .ipv4, addr := Block.ofBytes 16 a.1 }
  | none => { c with family := .ipv6, addr := (net.pton6 mapped.ip).getD (Block.zero 16) }

/-- Two different external ports for one local port give the stride. -/
def observeSrflxPort (port : ℕ) (s : Session) : Session :=
  if !s.cfg.symmetricPortPredictionEnabled then s
  else
    match s.firstObservedSrflxPort with
    | none => { s with firstObservedSrflxPort := some port }
    | some a =>
      if port ≠ a ∧ s.symmetricStride = 0 then
        { s with symmetricStride := if a < port then port - a else a - port }
      else s

def armGatherFallback (s : Session) : Session :=
  if s.hasTimer then
    ({ s with gatherGen := s.gatherGen + 1 } : Session).post (.gatherFallback (s.gatherGen + 1))
  else s

/-- The first STUN response drives the session on, unless TURN is still in flight. -/
def onFirstSrflx (env : Env) (s : Session) : Session :=
  if s.stunGathered then s
  else
    let s := { s with gatherGen := s.gatherGen + 1, stunGathered := true }
    if s.turnGathering then s.armGatherFallback else s.onGatheringComplete env

def handleGatherResponse (env : Env) (m : StunMessage) (tx : TransportType) (s : Session) :
    Session :=
  match m.xorMapped with
  | none => s
  | some mapped =>
    if m.txnId ∉ s.pendingStunProbes then s
    else
      let c := srflxCandidate env.net mapped tx
      let s := observeSrflxPort c.port
        { s with pendingStunProbes := s.pendingStunProbes.erase m.txnId }
      let known := s.localCandidates.any fun e =>
        e.type = .srflx && transportIsTcp e.transport == transportIsTcp c.transport
      let s := if known then s else s.pushAllowed c .srflx
      s.onFirstSrflx env

def armTurnBackupTimer (s : Session) : Session :=
  if s.hasTimer then
    ({ s with turnBackupGen := s.turnBackupGen + 1 } : Session).post
      (.turnBackupTick (s.turnBackupGen + 1))
  else s

/-- The servers after the one in use are kept as backups. -/
def armTurnBackups (s : Session) : Session :=
  let s := { s with turnBackups := s.turnServers.drop (s.turnAttemptIdx + 1) }
  if s.turnBackups ≠ [] ∧ 0 < s.cfg.turnBackupIntervalS then
    armTurnBackupTimer { s with turnBackupProbeIdx := 0 }
  else s

def foldRelayIntoChecks (env : Env) (s : Session) : Session :=
  if s.remoteCandidates ≠ [] ∧ s.state = .checking then
    let s := s.recheck env
    if s.controlling then s else s.onGathered
  else s

def onTurnAllocated (env : Env) (c : Candidate) (s : Session) : Session :=
  let s := { s with turnAllocateGen := s.turnAllocateGen + 1 }
  if !candidateAllowed c.type c.family s.cfg.candidateFilter then s
  else
    let s := s.pushLocal c
    let s := s.remoteCandidates.foldl
      (fun s r => s.turnCreatePermission env (r.addressStr env.net)) s
    (s.armTurnBackups.onTurnSettled env).foldRelayIntoChecks env

def onTurnAllocateTimeout (env : Env) (s : Session) : Session :=
  if s.turnAllocated then s
  else tryNextTurnAttempt env { s with turnAttemptIdx := s.turnAttemptIdx + 1 }

def probeTurnBackup (env : Env) (s : Session) : Session :=
  let idx := if s.turnBackups.length ≤ s.turnBackupProbeIdx then 0 else s.turnBackupProbeIdx
  let s := armTurnBackupTimer { s with turnBackupProbeIdx := idx + 1 }
  match s.turnBackups[idx]? with
  | none => s
  | some cfg =>
    let r := s.buildTurnClient env cfg true
    match r.1 with
    | none => { r.2 with turnBackupProbe := none }
    | some c =>
      ({ r.2.drawn with turnBackupProbe := some c } : Session).turnOutputs env c
        (c.allocate (env.txnId r.2.draws))

def onTurnBackupTick (env : Env) (s : Session) : Session :=
  if s.turnBackups = [] ∨ s.cfg.turnBackupIntervalS = 0 ∨ s.state = .failed then s
  else (s.dropTurnBackupProbe env).probeTurnBackup env

/-- A Connected session drops back into Checking with the new relay candidate. -/
def recheckAfterFailover (env : Env) (s : Session) : Session :=
  if s.remoteCandidates ≠ [] ∧ s.state = .checking then s.recheck env
  else if s.state = .connected then (s.setState .checking).recheck env
  else s

def stampFailover (now : ℕ) (s : Session) : Session := { s with turnLastFailover := now }

def promoteTurnBackup (env : Env) (client : TurnClient) (cfg : TurnConfig) (s : Session) :
    Session :=
  let s := (s.drawn.stampFailover (env.clock s.draws)).turnClose env
  let s := s.locked fun s =>
    { s with localCandidates := s.localCandidates.filter (·.type ≠ .relay) }
  let c := relayCandidate env.net client.relayed
  (pushAllowed c c.type { s with turn := some client, turnCfg := cfg }).recheckAfterFailover env

/-- The closure posted by a backup's allocation callback: promote it when the primary is
unhealthy and the last failover is long enough ago. -/
def onBackupAllocated (env : Env) (cfg : TurnConfig) (s : Session) : Session :=
  match s.turnBackupProbe with
  | none => s
  | some probe =>
    let since := if s.turnLastFailover = 0 then s.cfg.turnFailoverMinIntervalS
      else (env.clock s.draws - s.turnLastFailover) / 10 ^ 6
    let s := s.drawn
    if s.turn.any (·.isHealthy) ∨ since < s.cfg.turnFailoverMinIntervalS then
      s.dropTurnBackupProbe env
    else promoteTurnBackup env probe cfg { s with turnBackupProbe := none }

def unregisterMdns (s : Session) : Session :=
  if s.hasMdns then { s with mdnsLocalHostname := [] } else s

/-- Every timer but that of the path-MTU probe is outdated. -/
def cancelTimers (s : Session) : Session :=
  { s with
    checkGen := s.checkGen + 1
    keepaliveGen := s.keepaliveGen + 1
    gatherGen := s.gatherGen + 1
    turnAllocateGen := s.turnAllocateGen + 1
    turnBackupGen := s.turnBackupGen + 1
    nominationWaitGen := s.nominationWaitGen + 1
    nominationWaitArmed := false }

def closeTeardown (env : Env) (s : Session) : Session :=
  let s := ((s.cancelTimers.turnClose env).turnBackupProbeClose env).unregisterMdns
  { s.releasePortmapMapping.tearDownCids with nominatedCid := 0 }

/-- `close` stores Failed at once; the rest is dispatched. -/
def close (s : Session) : Session := (s.setState .failed).post .closeTeardown

def restartTimers (env : Env) (s : Session) : Session :=
  { (s.cancelTimers.dropTurn env).dropTurnBackupProbe env with
    turnBackups := []
    turnAttemptIdx := 0
    turnBackupProbeIdx := 0
    turnLastFailover := 0 }

def freshCredentials (env : Env) (s : Session) : Session :=
  { s.locked fun s =>
    { s with
      localUfrag := env.ufrag s.draws
      localPwd := env.pwd s.draws
      localCandidates := [] } with draws := s.draws + 1 }

/-- The state that a restart wipes. The pending-nomination slot is not among it. -/
def wipeForRestart (s : Session) : Session :=
  { s.unregisterMdns.tearDownCids with
    remoteCandidates := []
    remoteUfrag := []
    remotePwd := []
    checkList := []
    pendingStunProbes := []
    currentCheck := 0
    consentMissed := 0
    consentRecoveryAttempts := 0
    nomineeSelected := false
    remoteEndOfCandidates := false
    gatheredSignalFired := false
    stunGathered := false
    turnGathering := false
    nominatedCid := 0
    peerSymmetric := false
    symmetricStride := 0
    firstObservedSrflxPort := none
    nominatedEp := ⟨[], 0⟩
    usesRelay := false
    carrierInitialized := false
    localPort := 0 }

/-- Everything `restart` does before it gathers again. -/
def reset (env : Env) (s : Session) : Session :=
  (((s.emit .restarted).restartTimers env).freshCredentials env).wipeForRestart.setState .new

def restart (env : Env) (s : Session) : Session :=
  if s.state = .failed then s else (s.reset env).gather env

end Session

end LinkIce
