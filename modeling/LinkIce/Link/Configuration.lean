import LinkIce.Lib.Registers
import LinkIce.Session.State

/-! The configuration that the link keeps for its next session. The operator's keys are read
as a whole on every reload; the topology writes three of the fields on its own. -/
namespace LinkIce

def text (s : String) : Bytes := s.toList.map fun c => UInt8.ofNat c.toNat

/-- The parts of the SDK's URI parser that the link uses. -/
structure Sdk where
  uriHasControlBytes : Bytes → Bool
  parseUri : Bytes → Option (Bytes × ℕ)

def Sdk.hostPort (sdk : Sdk) (uri : Bytes) : Option (Bytes × ℕ) :=
  (sdk.parseUri uri).filter fun p => p.1 ≠ [] ∧ p.2 ≠ 0

structure DnsRecord where
  type : ℕ
  ttlS : ℕ
  rdata : Bytes

structure ResolvedSrv where
  target : Bytes
  port : ℕ
  priority : ℕ
  weight : ℕ
  ttlS : ℕ

/-- What the host answers while one call of `apply_config` runs. A text is present when the
read succeeds with a value that is not null. -/
structure HostConfig where
  getInt64 : String → Option ℤ := fun _ => none
  getBool : String → Option Bool := fun _ => none
  getString : String → Option Bytes := fun _ => none
  getArraySize : String → Option ℕ := fun _ => none
  getArrayString : String → ℕ → Option Bytes := fun _ _ => none
  getArrayInt64 : String → ℕ → Option ℤ := fun _ _ => none
  dns : Option (Bytes → ℕ → List DnsRecord) := none

def srvType : ℕ := 33

/-- A name of RFC 1035 without compression, in dotted form. -/
def decodeName : ℕ → Bytes → Bytes → Option Bytes
  | _, _, [] => none
  | 0, _, _ => none
  | fuel + 1, name, lb :: rest =>
    if lb.toNat &&& 0xC0 ≠ 0 then none
    else if lb = 0 then some name
    else if 63 < lb.toNat then none
    else if rest.length < lb.toNat then none
    else
      decodeName fuel (name ++ (if name = [] then [] else text ".") ++ rest.take lb.toNat)
        (rest.drop lb.toNat)

def parseSrvBlob (r : DnsRecord) : Option ResolvedSrv :=
  if r.rdata.length < 7 then none
  else
    (decodeName (r.rdata.length - 6) [] (r.rdata.drop 6)).map fun target =>
      { target
        port := read16 (r.rdata.drop 4)
        priority := read16 r.rdata
        weight := read16 (r.rdata.drop 2)
        ttlS := r.ttlS }

/-- The order of `resolve_srv`: lower priority, then higher weight, then the target's text. -/
def ResolvedSrv.before (a b : ResolvedSrv) : Bool :=
  if a.priority ≠ b.priority then a.priority < b.priority
  else if a.weight ≠ b.weight then b.weight < a.weight
  else a.target < b.target

def resolveSrv (dns : Bytes → ℕ → List DnsRecord) (name : Bytes) (maxResults : ℕ) :
    List ResolvedSrv :=
  (((dns name maxResults).filter (·.type = srvType)).filterMap parseSrvBlob).mergeSort
    fun a b => !b.before a

inductive ServiceScheme
  | stun | turn
  deriving DecidableEq, Repr

def ServiceScheme.name : ServiceScheme → Bytes
  | stun => text "stun"
  | turn => text "turn"

/-- `port` is zero when the URI has none. -/
structure ServiceUri where
  scheme : ServiceScheme
  host : Bytes
  port : ℕ

def ServiceScheme.ofName (name : Bytes) : Option ServiceScheme :=
  if name = stun.name then some .stun else if name = turn.name then some .turn else none

/-- `_service._udp.host`. -/
def resolveService (dns : Bytes → ℕ → List DnsRecord) (service : ServiceScheme) (host : Bytes)
    (maxResults : ℕ) : List ResolvedSrv :=
  resolveSrv dns (text "_" ++ service.name ++ text "._udp." ++ host) maxResults

def colon : UInt8 := 0x3A

def afterLast (c : UInt8) (b : Bytes) : Bytes := (b.reverse.takeWhile (· ≠ c)).reverse

/-- The authority of a service URI, without slashes and without user information. -/
def serviceAuthority (rest : Bytes) : Option Bytes :=
  if rest = [] then none
  else
    let rest := if rest.take 2 = text "//" then rest.drop 2 else rest
    let rest := afterLast 0x40 rest
    if rest = [] ∨ rest.head? = some 0x5B then none else some rest

def parseServiceUri (sdk : Sdk) (raw : Bytes) : Option ServiceUri :=
  if sdk.uriHasControlBytes raw || colon ∉ raw then none
  else do
    let scheme ← ServiceScheme.ofName (raw.takeWhile (· ≠ colon))
    let rest ← serviceAuthority ((raw.dropWhile (· ≠ colon)).drop 1)
    if colon ∉ rest then pure ⟨scheme, rest, 0⟩
    else
      let (host, port) ← sdk.hostPort (scheme.name ++ text "://" ++ rest)
      pure ⟨scheme, host, port⟩

def hostColonPort (host : Bytes) (port : ℕ) : Bytes := host ++ [colon] ++ decimal port

namespace HostConfig

variable (h : HostConfig)

def strings (key : String) : Option (List Bytes) :=
  (h.getArraySize key).map fun n => (List.range n).filterMap (h.getArrayString key)

/-- An integer within its bounds, or the value that stands already. -/
def int (key : String) (ok : ℤ → Bool) (old : ℕ) : ℕ :=
  match h.getInt64 key with
  | some v => if ok v then v.toNat else old
  | none => old

def toggle (key : String) (old : Bool) : Bool :=
  match h.getInt64 key with
  | some v => v ≠ 0
  | none => old

def pushStun (sdk : Sdk) (raw : Bytes) : List Bytes :=
  match (parseServiceUri sdk raw).filter (·.scheme = .stun) with
  | none => [raw]
  | some u =>
    if u.port ≠ 0 then [hostColonPort u.host u.port]
    else
      match h.dns.elim [] fun dns => resolveService dns .stun u.host 16 with
      | [] => [raw]
      | srv => srv.map fun r => hostColonPort r.target r.port

def legacyTurn (sdk : Sdk) (raw : Bytes) : Option TurnConfig :=
  if sdk.uriHasControlBytes raw then none
  else if colon ∉ raw then some { server := raw }
  else (sdk.hostPort raw).map fun p => { server := p.1, port := p.2 }

def parseTurnEntry (sdk : Sdk) (raw : Bytes) : Option TurnConfig :=
  if raw = [] then none
  else
    match (parseServiceUri sdk raw).filter (·.scheme = .turn) with
    | none => legacyTurn sdk raw
    | some u =>
      if u.port ≠ 0 then some { server := u.host, port := u.port }
      else
        match h.dns with
        | none => legacyTurn sdk raw
        | some dns =>
          (resolveService dns .turn u.host 1).head?.map fun r =>
            { server := r.target, port := r.port }

def turnEntries : List Bytes :=
  (h.strings "ice.turn_servers").getD (h.getString "ice.turn_servers").toList

def requestedTransport : Option ℕ :=
  match h.getString "ice.turn_requested_transport" with
  | some s => some (if s ∈ [text "tcp", text "TCP", text "6"] then requestedTransportTcp else 17)
  | none =>
    (h.getInt64 "ice.turn_requested_transport").map fun v : ℤ =>
      if v = requestedTransportTcp then requestedTransportTcp else 17

def turnSettings (t : TurnConfig) : TurnConfig where
  server := t.server
  port := t.port
  username := (h.getString "ice.turn_username").getD t.username
  password := (h.getString "ice.turn_password").getD t.password
  tcpTransport := (h.getBool "ice.turn_tcp").getD t.tcpTransport
  tlsTransport := h.toggle "ice.turn_tls" t.tlsTransport
  requestedTransport := h.requestedTransport.getD t.requestedTransport

/-- One token of `ice.candidate_filters`; unknown ones are ignored. -/
def filterToken (f : CandidateFilter) (tok : Bytes) : CandidateFilter :=
  if tok = text "exclude-ipv4" then { f with excludeIpv4 := true }
  else if tok = text "exclude-ipv6" then { f with excludeIpv6 := true }
  else if tok = text "relay-only" then { f with relayOnly := true }
  else if tok = text "host-only" then { f with hostOnly := true }
  else f

def validMtu (v : ℤ) : Bool := 576 ≤ v ∧ v ≤ 65507

def searchSteps : List ℤ :=
  match h.getArraySize "ice.pmtu_search_steps" with
  | none => []
  | some n =>
    (List.range n).filterMap fun i =>
      (h.getArrayInt64 "ice.pmtu_search_steps" i).filter validMtu

def pathMtu : Option ℕ := ((h.getInt64 "ice.path_mtu").filter validMtu).map Int.toNat

end HostConfig

/-- The session configuration as the link keeps it, with the servers still as text. -/
structure LinkConfig where
  stunServers : List Bytes := []
  turn : TurnConfig := {}
  turnServers : List TurnConfig := []
  sessionTimeoutS : ℕ := 10
  keepaliveIntervalS : ℕ := 20
  consentMaxFailures : ℕ := 3
  turnAllocateTimeoutS : ℕ := 5
  turnBackupIntervalS : ℕ := 30
  turnFailoverMinIntervalS : ℕ := 60
  consentMaxRecovery : ℕ := 3
  checkIntervalMs : ℕ := 50
  maxCheckRetries : ℕ := 4
  aggressiveNomination : Bool := false
  candidateFilter : CandidateFilter := {}
  mdnsObfuscateHostCandidates : Bool := false
  mdnsResolveTimeoutMs : ℕ := 5000
  pathMtu : ℕ := 1200
  pmtuActiveProbing : Bool := true
  pmtuSearchSteps : List ℤ := [1200, 1400, 1500, 4000, 9000]
  pmtuProbeTimeoutMs : ℕ := 500
  pmtuProbeConcurrency : ℕ := 1
  liteMode : Bool := false
  reactiveInterfaceChange : Bool := true
  symmetricPortPredictionEnabled : Bool := true
  symmetricPortPredictionAttempts : ℕ := 8
  tcpCandidatesEnabled : Bool := true
  tcpSoTimeoutMs : ℕ := 5000
  tcpConnectTimeoutMs : ℕ := 3000
  autoRestartOnConsentLoss : Bool := true
  autoRestartMaxAttempts : ℕ := 3
  autoRestartBackoffMs : ℕ := 500
  nominationWaitMs : ℕ := 500
  preferTurnTcp : Bool := false
  securityOverhead : ℤ := 0
  orderedDelivery : Bool := false
  deriving DecidableEq

def defaultStunServers : List Bytes := [text "stun.l.google.com:19302"]

namespace HostConfig

variable (sdk : Sdk) (h : HostConfig) (c : LinkConfig)

def readServers : LinkConfig :=
  let servers := h.turnEntries.filterMap (h.parseTurnEntry sdk)
  { c with
    stunServers :=
      match h.strings "ice.stun_servers" with
      | some raws => raws.flatMap (h.pushStun sdk)
      | none => c.stunServers
    turnServers := servers.map h.turnSettings
    turn := h.turnSettings (servers.head?.getD c.turn) }

def readTimers : LinkConfig :=
  { c with
    sessionTimeoutS := h.int "ice.session_timeout_s" (fun v => 0 < v ∧ v < 3600) c.sessionTimeoutS
    keepaliveIntervalS :=
      h.int "ice.keepalive_interval_s" (fun v => 0 < v ∧ v < 3600) c.keepaliveIntervalS
    consentMaxFailures :=
      h.int "ice.consent_max_failures" (fun v => 0 < v ∧ v < 100) c.consentMaxFailures
    consentMaxRecovery :=
      h.int "ice.consent_max_recovery" (fun v => 0 ≤ v ∧ v ≤ 10) c.consentMaxRecovery
    checkIntervalMs := h.int "ice.check_interval_ms" (fun v => 0 < v ∧ v < 60000) c.checkIntervalMs
    maxCheckRetries := h.int "ice.max_check_retries" (fun v => 1 ≤ v ∧ v ≤ 16) c.maxCheckRetries
    nominationWaitMs :=
      h.int "ice.nomination_wait_ms" (fun v => 0 ≤ v ∧ v ≤ 10000) c.nominationWaitMs
    turnAllocateTimeoutS :=
      h.int "ice.turn_allocate_timeout_s" (fun v => 0 < v ∧ v < 600) c.turnAllocateTimeoutS
    turnBackupIntervalS :=
      h.int "ice.turn_backup_interval_s" (fun v => 0 ≤ v ∧ v < 3600) c.turnBackupIntervalS
    turnFailoverMinIntervalS :=
      h.int "ice.turn_failover_min_interval_s" (fun v => 0 ≤ v ∧ v < 3600)
        c.turnFailoverMinIntervalS
    mdnsResolveTimeoutMs :=
      h.int "ice.mdns_resolve_timeout_ms" (fun v => 0 < v ∧ v < 60000) c.mdnsResolveTimeoutMs
    tcpSoTimeoutMs := h.int "ice.tcp_so_timeout_ms" (fun v => 0 < v ∧ v < 600000) c.tcpSoTimeoutMs
    autoRestartMaxAttempts :=
      h.int "ice.auto_restart_max_attempts" (fun v => 0 ≤ v ∧ v ≤ 100) c.autoRestartMaxAttempts
    autoRestartBackoffMs :=
      h.int "ice.auto_restart_backoff_ms" (fun v => 0 ≤ v ∧ v < 600000) c.autoRestartBackoffMs
    pmtuProbeTimeoutMs :=
      h.int "ice.pmtu_probe_timeout_ms" (fun v => 0 < v ∧ v < 60000) c.pmtuProbeTimeoutMs
    pmtuProbeConcurrency :=
      h.int "ice.pmtu_probe_concurrency" (fun v => 0 < v ∧ v ≤ 16) c.pmtuProbeConcurrency
    symmetricPortPredictionAttempts :=
      h.int "ice.symmetric_port_prediction_attempts" (fun v => 0 ≤ v ∧ v ≤ 64)
        c.symmetricPortPredictionAttempts }

def readSwitches : LinkConfig :=
  { c with
    aggressiveNomination := h.toggle "ice.aggressive_nomination" c.aggressiveNomination
    liteMode := h.toggle "ice.lite_mode" c.liteMode
    reactiveInterfaceChange :=
      h.toggle "ice.reactive_interface_change" c.reactiveInterfaceChange
    symmetricPortPredictionEnabled :=
      h.toggle "ice.symmetric_port_prediction_enabled" c.symmetricPortPredictionEnabled
    candidateFilter :=
      ((h.strings "ice.candidate_filters").getD []).foldl filterToken c.candidateFilter
    mdnsObfuscateHostCandidates :=
      h.toggle "ice.mdns_obfuscate_host_candidates" c.mdnsObfuscateHostCandidates
    tcpCandidatesEnabled := h.toggle "ice.tcp_candidates_enabled" c.tcpCandidatesEnabled
    autoRestartOnConsentLoss :=
      h.toggle "ice.auto_restart_on_consent_loss" c.autoRestartOnConsentLoss
    pmtuActiveProbing := h.toggle "ice.pmtu_active_probing" c.pmtuActiveProbing
    pmtuSearchSteps := if h.searchSteps = [] then c.pmtuSearchSteps else h.searchSteps }

/-- What a reload puts together from the defaults and the operator's keys, the path MTU apart. -/
def readConfig : LinkConfig :=
  h.readSwitches (h.readTimers (h.readServers sdk { stunServers := defaultStunServers }))

end HostConfig

structure Settings where
  cfg : LinkConfig
  mtu : ℕ

inductive ConfigCall
  | setPreferTurnTcp (val : Bool)
  | setSecurityOverhead (overhead : ℤ)
  | setOrderedDelivery (val : Bool)
  | applyConfig (host : Option HostConfig)

namespace Settings

variable (sdk : Sdk)

def initial : Settings where
  cfg := { stunServers := defaultStunServers }
  mtu := 1200

/-- Nothing is read without a host API. The path MTU is written to the link as well, and stays
there when a later content has none. -/
def applyConfig (host : Option HostConfig) (s : Settings) : Settings :=
  match host with
  | none => s
  | some h =>
    let mtu := h.pathMtu.getD s.mtu
    { cfg := { h.readConfig sdk with pathMtu := mtu }, mtu }

def call (s : Settings) : ConfigCall → Settings
  | .setPreferTurnTcp val => { s with cfg := { s.cfg with preferTurnTcp := val } }
  | .setSecurityOverhead overhead => { s with cfg := { s.cfg with securityOverhead := overhead } }
  | .setOrderedDelivery val => { s with cfg := { s.cfg with orderedDelivery := val } }
  | .applyConfig host => s.applyConfig sdk host

def run (cs : List ConfigCall) : Settings := cs.foldl (call sdk) initial

end Settings

def splitStunHostPort (sdk : Sdk) (server : Bytes) : Option Endpoint :=
  if server = [] then none
  else if colon ∉ server then some ⟨server, 3478⟩
  else (sdk.hostPort (text "stun://" ++ server)).map fun p => ⟨p.1, p.2⟩

def LinkConfig.handed (sdk : Sdk) (c : LinkConfig) : IceConfig where
  stunServers := c.stunServers.map (splitStunHostPort sdk)
  turn := c.turn
  turnServers := c.turnServers
  consentMaxFailures := c.consentMaxFailures
  turnBackupIntervalS := c.turnBackupIntervalS
  turnFailoverMinIntervalS := c.turnFailoverMinIntervalS
  consentMaxRecovery := c.consentMaxRecovery
  checkIntervalMs := c.checkIntervalMs
  maxCheckRetries := c.maxCheckRetries
  aggressiveNomination := c.aggressiveNomination
  candidateFilter := c.candidateFilter
  mdnsObfuscateHostCandidates := c.mdnsObfuscateHostCandidates
  pathMtu := c.pathMtu
  pmtuActiveProbing := c.pmtuActiveProbing
  pmtuSearchSteps := c.pmtuSearchSteps
  liteMode := c.liteMode
  symmetricPortPredictionEnabled := c.symmetricPortPredictionEnabled
  symmetricPortPredictionAttempts := c.symmetricPortPredictionAttempts
  tcpCandidatesEnabled := c.tcpCandidatesEnabled
  autoRestartOnConsentLoss := c.autoRestartOnConsentLoss
  autoRestartMaxAttempts := c.autoRestartMaxAttempts
  autoRestartBackoffMs := c.autoRestartBackoffMs
  nominationWaitMs := c.nominationWaitMs
  preferTurnTcp := c.preferTurnTcp
  orderedDelivery := c.orderedDelivery

end LinkIce
