import LinkIce.Session.Inbound

/-! The session as a transition system: one step for each piece of work that runs on
the strand. -/
namespace LinkIce
open Stun

/-- A chunk of a TCP stream is a `tcpBytes` followed by one `tcpFrame` for each round of
the reassembly loop. -/
inductive Event
  | gather
  | addRemoteCandidates (ufrag pwd : Bytes) (cands : List Candidate) (endOfCandidates : Bool)
  | setRemote (ufrag pwd : Bytes) (cands : List Candidate)
  | setPeerSignalFlags (symmetric : Bool)
  | restart
  | close
  | send (buf : Bytes)
  | udpData (cid : Cid) (bytes : Bytes)
  | tcpBytes (cid : Cid) (bytes : Bytes)
  | tcpFrame (cid : Cid)
  | turnStream (backup : Bool) (bytes : Bytes)
  | mdnsResolved (idx : ℕ) (hostname : Bytes) (r : MdnsResolveResult)
  | task (t : Task)
  deriving DecidableEq

/-- Which carriers and services the session was constructed with. -/
structure Wiring where
  carrier : Bool := true
  carrierTcp : Bool := false
  carrierTls : Bool := false
  timer : Bool := true
  mdns : Bool := false
  portmap : Bool := false

/-- A host with one IPv4 interface on a network that accepts every connection. Address
texts are the raw bytes, and all draws differ. -/
def Env.lan : Env where
  net := .posix
  md5 := id
  txnId := fun n => Block.ofBytes 12 (be32 n)
  ufrag := be32
  pwd := be32
  uuid := be32
  clock := fun n => (n + 1) * 10 ^ 6
  connect := fun _ n _ => n + 1
  listenPort := fun _ => 5000
  interfaces := fun _ => some [⟨true, false, .ipv4, Block.ofBytes 16 [10, 0, 0, 1], false⟩]
  portmap := fun _ => none
  danglingPort := fun _ => 0

namespace Session

variable {H : Hmac} {env : Env} {s : Session}

def create (env : Env) (cfg : IceConfig) (w : Wiring) (controlling : Bool) (tiebreaker : ℕ) :
    Session where
  cfg := cfg
  hasCarrier := w.carrier
  hasCarrierTcp := w.carrierTcp
  hasCarrierTls := w.carrierTls
  hasTimer := w.timer
  hasMdns := w.mdns
  hasPortmap := w.portmap
  controlling := !cfg.liteMode && controlling
  tiebreaker := tiebreaker % 2 ^ 64
  localUfrag := env.ufrag 0
  localPwd := env.pwd 0
  turnCfg := cfg.turn
  turnServers := cfg.turnServers
  effectiveMtu := cfg.pathMtu
  draws := 1

/-- A timer of an older generation does nothing. -/
def runTask (H : Hmac) (env : Env) (s : Session) : Task → Session
  | .stunProbes => s.stunProbes env
  | .turnAttempt => s.tryNextTurnAttempt env
  | .turnAllocated c => s.onTurnAllocated env c
  | .backupAllocated cfg => s.onBackupAllocated env cfg
  | .relayStun ep bytes => s.onRelayStun H env ep bytes
  | .closeTeardown => s.closeTeardown env
  | .gatherTimeout gen => if s.gatherGen = gen then s.onGatherTimeout env else s
  | .gatherFallback gen => if s.gatherGen = gen then s.onGatheringComplete env else s
  | .turnAllocateTimeout gen => if s.turnAllocateGen = gen then s.onTurnAllocateTimeout env else s
  | .turnBackupTick gen => if s.turnBackupGen = gen then s.onTurnBackupTick env else s
  | .checkTick gen => if s.checkGen = gen then s.runNextCheck env else s
  | .nominationWait gen => if s.nominationWaitGen = gen then s.onNominationWaitExpired else s
  | .keepalive gen => if s.keepaliveGen = gen then s.onKeepalive env else s
  | .pmtuTimeout gen => if s.pmtuProbeGen = gen then s.onPathMtuProbeTimeout env else s
  | .tcpConnectTimeout cid => s.onTcpConnectTimeout env cid
  -- a query that nobody answers
  | .mdnsResolve _ _ => s

def dequeue (t : Task) (s : Session) : Session := { s with queue := s.queue.erase t }

def turnStream (env : Env) (backup : Bool) (bytes : Bytes) (s : Session) : Session :=
  if backup then
    (if s.turnBackupProbe.any (·.carrier ≠ .udp) then s.turnBackupOnInbound env bytes else s)
  else if s.turn.any (·.carrier ≠ .udp) then s.turnOnInbound env bytes else s

/-- Queued work runs only if it is queued. -/
def step (H : Hmac) (env : Env) (s : Session) : Event → Session
  | .gather => s.gather env
  | .addRemoteCandidates ufrag pwd cands eoc => s.addRemoteCandidates env ufrag pwd cands eoc
  | .setRemote ufrag pwd cands => s.setRemote env ufrag pwd cands
  | .setPeerSignalFlags symmetric => s.setPeerSignalFlags env symmetric
  | .restart => s.restart env
  | .close => s.close
  | .send buf => s.sendPosted env buf
  | .udpData cid bytes => s.onCarrierData H env cid false bytes
  | .tcpBytes cid bytes => s.tcpAppend cid bytes
  | .tcpFrame cid => s.tcpFrame H env cid
  | .turnStream backup bytes => s.turnStream env backup bytes
  | .mdnsResolved idx hostname r =>
    if .mdnsResolve idx hostname ∈ s.queue then
      (s.dequeue (.mdnsResolve idx hostname)).onMdnsResolved env idx hostname r
    else s
  | .task t => if t ∈ s.queue then (s.dequeue t).runTask H env t else s

def run (H : Hmac) (env : Env) (s : Session) (es : List Event) : Session :=
  es.foldl (step H env) s

def Reachable (H : Hmac) (env : Env) (s : Session) : Prop :=
  ∃ (cfg : IceConfig) (w : Wiring) (controlling : Bool) (tiebreaker : ℕ) (es : List Event),
    s = (create env cfg w controlling tiebreaker).run H env es

/-- The loop of `on_tcp_carrier_data`; a frame takes at least two bytes. -/
def drainTcp (H : Hmac) (env : Env) (cid : Cid) : ℕ → Session → Session
  | 0, s => s
  | fuel + 1, s =>
    if ((s.tcpRxBuffers.lookup cid).bind TurnClient.tryTakeStreamFrame).isSome then
      drainTcp H env cid fuel (s.tcpFrame H env cid)
    else s

def onTcpCarrierData (H : Hmac) (env : Env) (cid : Cid) (bytes : Bytes) (s : Session) : Session :=
  let s := s.tcpAppend cid bytes
  drainTcp H env cid ((s.tcpRxBuffers.lookup cid).getD []).length s

theorem run_append (H : Hmac) (env : Env) (s : Session) (es fs : List Event) :
    s.run H env (es ++ fs) = (s.run H env es).run H env fs := by
  simp [run]

@[simp] theorem run_nil : s.run H env [] = s := rfl

@[simp] theorem run_cons {e : Event} {es : List Event} :
    s.run H env (e :: es) = (s.step H env e).run H env es := rfl

/-- A property that every step keeps holds in every state of a run. -/
theorem run_invariant {I : Session → Prop}
    (hI : ∀ s e, I s → I (s.step H env e)) (hs : I s) (es : List Event) :
    I (s.run H env es) := by
  induction es generalizing s with
  | nil => exact hs
  | cons e es ih => exact ih (hI s e hs)

private theorem drainTcp_eq_run (H : Hmac) (env : Env) (cid : Cid) (fuel : ℕ) (s : Session) :
    ∃ k, drainTcp H env cid fuel s = s.run H env (List.replicate k (.tcpFrame cid)) := by
  induction fuel generalizing s with
  | zero => exact ⟨0, rfl⟩
  | succ fuel ih =>
    simp only [drainTcp]
    split_ifs with hf
    · obtain ⟨k, hk⟩ := ih (s.tcpFrame H env cid)
      exact ⟨k + 1, by rw [hk]; rfl⟩
    · exact ⟨0, rfl⟩

theorem onTcpCarrierData_eq_run {cid : Cid} {bytes : Bytes} :
    ∃ k, s.onTcpCarrierData H env cid bytes =
      s.run H env (.tcpBytes cid bytes :: List.replicate k (.tcpFrame cid)) :=
  drainTcp_eq_run H env cid _ _

end Session

end LinkIce
