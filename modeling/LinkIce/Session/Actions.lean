import LinkIce.Lib.Path
import LinkIce.Session.Frame

/-! What a piece of strand work can do, once and for all: every handler is a path of the
actions below. Actions that some property is sensitive to carry a label. -/
namespace LinkIce
open Stun

namespace CheckPair

/-- Only the state changed, and not to Frozen or Succeeded. -/
def Repaints (p q : CheckPair) : Prop :=
  q = { p with state := q.state } ∧
    (q.state = p.state ∨ (q.state ≠ .frozen ∧ q.state ≠ .succeeded))

/-- The USE-CANDIDATE follow-up of this pair waits for its response. -/
def awaitingNomination (p : CheckPair) : Bool := p.nomineeCheckSent && p.state = .succeeded

end CheckPair

/-- The filter lets the candidate pass; a hidden host address counts as a host. -/
def Candidate.passes (f : CandidateFilter) (c : Candidate) : Bool :=
  candidateAllowed (if c.type = .hostMdns then .host else c.type) c.family f

/-- The text is an address that fits into XOR-PEER-ADDRESS. -/
def Stun.Inet.readable (net : Inet) (ip : Bytes) : Bool :=
  (net.pton4 ip).isSome || (net.pton6 ip).isSome

namespace TurnClient

def permits (net : Inet) (k : TurnClient) (ip : Bytes) : Bool :=
  decide (ip ∈ k.permissions) && net.readable ip

def coversAll (net : Inet) (k : TurnClient) (cs : List Candidate) : Bool :=
  cs.all fun c => decide (c.addressStr net ∈ k.permissions)

/-- A pair that is checked through the relay goes to a permitted address. -/
def coversPair (net : Inet) (k : TurnClient) (p : CheckPair) : Bool :=
  p.loc.type ≠ .relay || transportIsTcp p.transportType || k.permits net (p.rem.addressStr net)

end TurnClient

namespace Session

def hasRelayCandidate (s : Session) : Bool := s.localCandidates.any (·.type = .relay)

/-- The client could send every check of the list and of a rebuilt one. -/
def coveredBy (env : Env) (k : TurnClient) (s : Session) : Bool :=
  s.checkList.all (k.coversPair env.net) &&
    (!s.hasRelayCandidate || k.coversAll env.net s.remoteCandidates)

/-- An allocation now would find checks without a permission. -/
def allocationStrays (env : Env) (s : Session) : Bool :=
  s.turn.any fun k => !k.allocated && !s.coveredBy env k

/-- The candidates are none that the relay may be asked to reach. -/
def remotesStray (env : Env) (cs : List Candidate) (s : Session) : Bool :=
  s.turn.any fun k => k.allocated && s.hasRelayCandidate && !k.coversAll env.net cs

def takeoverLocals (env : Env) (client : TurnClient) (s : Session) : List Candidate :=
  let c := relayCandidate env.net client.relayed
  let l := s.localCandidates.filter (·.type ≠ .relay)
  if candidateAllowed c.type c.family s.cfg.candidateFilter then l ++ [c] else l

def sinceRestart (s : Session) : List Effect := s.log.takeWhile (· ≠ .restarted)

def checkLeaves (env : Env) (p : CheckPair) (s : Session) : Bool :=
  let ep := p.endpoint env.net
  decide (p.retries < s.retryLimit) &&
    if transportIsTcp p.transportType then
      p.transportType ≠ .tcpPassive && (s.drawn.ensureRemoteTcpCid env ep).1 ≠ 0
    else (p.loc.type = .relay && s.turnAllocated) || (s.drawn.ensureRemoteCid env ep).1 ≠ 0

def slotFresh (s : Session) : Bool :=
  s.sinceRestart.any fun
    | .requestReceived _ uc ep cid tx relay =>
      uc && decide (ep = s.pendingNomEp ∧ cid = s.pendingNomCid ∧ tx = s.pendingNomTx ∧
        relay = s.pendingNomRelay)
    | _ => false

/-- The slot names the path that a check of `p` verifies. -/
def slotFits (env : Env) (p : CheckPair) (s : Session) : Bool :=
  decide (p.endpoint env.net = s.pendingNomEp ∧ p.transportType = s.pendingNomTx) &&
    (p.loc.type = .relay) == s.pendingNomRelay

/-- A pair is pending, or the follow-up check of a controlling session is. -/
def checksUnfinished (s : Session) : Bool :=
  s.state = .checking && (s.checkList.any (·.isPending) ||
    (s.controlling && s.checkList.any (·.awaitingNomination)))

/-- The follow-up check of the pair that would be picked now reaches a carrier. -/
def pickLeaves (env : Env) (s : Session) : Bool :=
  (CheckPair.bestValid s.checkList).any fun i =>
    s.checkList[i]?.any fun p => s.checkLeaves env p

end Session

inductive Label
  | deliver (strays moves : Bool)
  | dequeue (k : Task)
  | resolve
  | work
  | release
  | publish
  | hosts
  | srflx (c : Candidate)
  | prflx (c : Candidate)
  | merge (c : Candidate)
  | rebuild
  | forget
  | gather (revives : Bool)
  | restart
  | close
  | teardown
  | rxBuffers
  | flip
  | respond (txn : TransactionId) (useCandidate : Bool)
  | reject
  | liteCheck
  | trigger (stale strays full : Bool)
  | pick (leaves : Bool)
  | exhaust (s : Session)
  | expire (premature : Bool)
  | loseConsent
  | nominateOwn (p : CheckPair)
  | nominateDeferred (p : CheckPair) (fits : Bool)
  | nominateNow (p : CheckPair) (relay : Bool) (revives : Bool)
  | relay (c : Candidate)
  | refresh
  | takeover (strays : Bool)
  | restate (strays : Bool) (cs : List Candidate)

/-- The names that stand for hidden host addresses fit the envelope. -/
def Env.NamesFit (env : Env) : Prop :=
  ∀ n, (env.uuid n ++ Session.localSuffix).length ≤ maxMdnsHostnameLen

open Session in
/-- One action. The premises are what the code has checked when it acts. -/
inductive Act (env : Env) : Session → Option Label → Session → Prop
  | quiet {s t : Session} (h : Quiet s t) : Act env s none t
  | dequeue (s : Session) (k : Task) : Act env s (some (.dequeue k)) (s.dequeue k)
  | resolve (s : Session) (h : s.hasMdns = true) :
      Act env s (some .resolve) { s with queue := nameQueries s.remoteCandidates ++ s.queue }
  | deliver {s t : Session} (h : Delivers s t) : Act env s (some (.deliver false false)) t
  | turnInput {s t : Session} (h : KeepsCore Effect.isRoutine s t) (hg : GatherKept s t)
      (hp : ∀ k ∈ t.turn, ∃ k₀ ∈ s.turn, k₀.permissions = k.permissions)
      (hb : t.turn.map (·.backup) = s.turn.map (·.backup))
      (ha : t.turnAllocated = true → s.turnAllocated = true ∨
        (∃ c, .turnAllocated c ∈ t.queue) ∨ ∃ k ∈ t.turn, k.backup = true) :
      Act env s (some (.deliver (t.turnAllocated && s.allocationStrays env)
        (!turnStays s.turn t.turn))) t
  | work {s t : Session} (h : Works Effect.isQuiet s t) (hs : turnStays s.turn t.turn = true) :
      Act env s (some .work) t
  | gatherFlags (s : Session) (stun turn : Bool) (servers : List TurnConfig) (idx : ℕ) :
      Act env s (some .work) { s with
        stunGathered := stun
        turnGathering := turn
        turnServers := servers
        turnAttemptIdx := idx }
  | release {s t : Session} (h : Works Effect.isQuiet s t) : Act env s (some .release) t
  | takeover (s : Session) (k : TurnClient) (cfg : TurnConfig) :
      Act env s (some (.takeover
          (!({ s with localCandidates := s.takeoverLocals env k } : Session).coveredBy env k)))
        { s with
          turn := some k
          turnCfg := cfg
          localCandidates := s.takeoverLocals env k
          mu := s.mu.lock.unlock }
  | hosts (s : Session) (l : List Candidate)
      (h : env.NamesFit → (∀ c ∈ s.localCandidates, c.Shaped) → ∀ c ∈ l, c.Shaped)
      (hr : ∀ c ∈ l, c.type = .relay → s.hasRelayCandidate = true)
      (hf : (∀ c ∈ s.localCandidates, c.passes s.cfg.candidateFilter = true) →
        ∀ c ∈ l, c.passes s.cfg.candidateFilter = true)
      (hl : (∀ c ∈ s.localCandidates, c.Listable) → ∀ c ∈ l, c.Listable) :
      Act env s (some .hosts) { s with localCandidates := l, mu := s.mu.lock.unlock }
  | srflx (s : Session) (c : Candidate) (hs : c.Own) (ht : c.type = .srflx)
      (ha : candidateAllowed .srflx c.family s.cfg.candidateFilter = true)
      (hn : ∀ e ∈ s.localCandidates, e.type = .srflx →
        transportIsTcp e.transport ≠ transportIsTcp c.transport) :
      Act env s (some (.srflx c)) (s.pushLocal c)
  | prflx (s : Session) (c : Candidate) (hs : c.Own) (ht : c.type = .prflx) :
      Act env s (some (.prflx c)) (s.pushLocal c)
  | relay (s : Session) (c : Candidate)
      (ha : candidateAllowed c.type c.family s.cfg.candidateFilter = true)
      (hr : ∀ k ∈ s.turn, k.coversAll env.net s.remoteCandidates = true) :
      Act env s (some (.relay c)) (s.pushLocal c)
  | merge (s : Session) (c : Candidate)
      (hr : ∀ k ∈ s.turn, k.allocated = true → c.addressStr env.net ∈ k.permissions) :
      Act env s (some (.merge c)) { s with remoteCandidates := s.remoteCandidates ++ [c] }
  | restate (s : Session) (l : List Candidate) :
      Act env s (some (.restate (s.remotesStray env l) l)) { s with remoteCandidates := l }
  | credentials (s : Session) (ufrag pwd : Bytes) :
      Act env s none { s with remoteUfrag := ufrag, remotePwd := pwd }
  | noteEnd (s : Session) : Act env s none { s with remoteEndOfCandidates := true }
  | forget (s : Session) : Act env s (some .forget) s.forgetRemote
  | gather (s : Session) :
      Act env s (some (.gather (s.state = .failed))) (s.setState .gathering)
  | waitRemote (s : Session) (h : s.state = .gathering) :
      Act env s none (s.setState .waitingRemote)
  | startChecking (s : Session)
      (h : s.state = .gathering ∨ s.state = .waitingRemote ∨ s.state = .connected) :
      Act env s (some .rebuild) (s.setState .checking)
  | recover (s : Session) (h : s.state = .connected)
      (hr : s.consentRecoveryAttempts < s.cfg.consentMaxRecovery) :
      Act env s (some .refresh)
        (({ s with consentRecoveryAttempts := s.consentRecoveryAttempts + 1 } :
          Session).refreshConsent.setState .checking)
  | rebuild (s : Session) : Act env s (some .rebuild) (s.buildCheckList env)
  | check (s : Session) (i : ℕ) (h : s.cfg.liteMode = false) : Act env s none (s.sendCheck env i)
  | liteCheck (s : Session) (i : ℕ) (h : s.cfg.liteMode = true) :
      Act env s (some .liteCheck) (s.sendCheck env i)
  | repaint (s : Session) (ps : List CheckPair) (h : List.Forall₂ CheckPair.Repaints s.checkList ps)
      (hc : ps.countP (·.state = .inProgress) ≤ max checkConcurrencyCap s.inProgressCount) :
      Act env s none { s with checkList := ps }
  | pick (s : Session) (hn : s.nomineeSelected = false) (hc : s.controlling = true)
      (ha : s.cfg.aggressiveNomination = false)
      (hv : (CheckPair.bestValid s.checkList).isSome = true) :
      Act env s (some (.pick (s.pickLeaves env))) (s.pickNominee env)
  | succeed (s : Session) (i : ℕ) (p : CheckPair) (h : s.state = .checking)
      (hp : s.checkList[i]? = some p) : Act env s none (s.succeedPair i p)
  | received (s : Session) (txn : TransactionId) (uc : Bool) (ep : Endpoint) (cid : Cid)
      (tx : TransportType) (relay : Bool) :
      Act env s none (s.emit (.requestReceived txn uc ep cid tx relay))
  | respond (s : Session) (fromTcp : Bool) (cid : Cid) (ep : Endpoint) (txn : TransactionId)
      (uc : Bool)
      (hr : ∃ ep cid tx relay, .requestReceived txn uc ep cid tx relay ∈ s.sinceRestart) :
      Act env s (some (.respond txn uc)) (s.reply fromTcp cid ep (s.responseMessage txn))
  | reject (s : Session) (fromTcp : Bool) (cid : Cid) (ep : Endpoint) (txn : TransactionId) :
      Act env s (some .reject) (s.reply fromTcp cid ep (s.roleConflictMessage txn))
  | stash (s : Session) (ep : Endpoint) (relay : Bool) (cid : Cid) (tx : TransportType)
      (hr : ∃ txn, .requestReceived txn true ep cid tx relay ∈ s.sinceRestart) :
      Act env s none (s.stashNomination ep relay cid tx)
  | defer (s : Session) (i : ℕ) (ep : Endpoint) (relay : Bool) (cid : Cid) (tx : TransportType)
      (hr : ∃ txn, .requestReceived txn true ep cid tx relay ∈ s.sinceRestart) :
      Act env s none ((s.markPendingNomination i).stashNomination ep relay cid tx)
  | trigger (s : Session) (l rem : Candidate) (hr : rem.type = .prflx) :
      Act env s (some (.trigger
          ((s.triggeredPair env l rem).pendingNomination && !s.slotFresh)
          (s.turn.any fun k => k.allocated && !k.coversPair env.net (s.triggeredPair env l rem))
          (checkConcurrencyCap ≤ s.inProgressCount)))
        { s.drawn with checkList := s.checkList ++ [s.triggeredPair env l rem] }
  | nominateOwn (s : Session) (p : CheckPair) (cid : Cid) (relay : Bool) (h : s.state = .checking)
      (hc : s.controlling = true)
      (hn : s.cfg.aggressiveNomination = true ∨ p.nomineeCheckSent = true)
      (hs : .checkSucceeded p ∈ s.sinceRestart) :
      Act env s (some (.nominateOwn p)) (s.commitNomination (.checkResponse p.txnId)
        (p.endpoint env.net) relay cid p.transportType)
  | nominateDeferred (s : Session) (i : ℕ) (p : CheckPair) (h : s.state = .checking)
      (hc : s.controlling = false) (hn : ∃ q ∈ s.checkList, q.pendingNomination = true)
      (hs : .checkSucceeded p ∈ s.sinceRestart) :
      Act env s (some (.nominateDeferred p (s.slotFits env p)))
        ((s.modifyPair i fun p => { p with pendingNomination := false }).commitNomination
          (.deferred p.txnId) s.pendingNomEp s.pendingNomRelay s.pendingNomCid s.pendingNomTx)
  | nominateNow (s : Session) (p : CheckPair) (ep : Endpoint) (relay : Bool) (cid : Cid)
      (tx : TransportType) (hc : s.controlling = false) (hp : p ∈ s.checkList)
      (hs : p.state = .succeeded) (he : p.endpoint env.net = ep) (ht : p.transportType = tx)
      (hr : ∃ txn, .requestReceived txn true ep cid tx relay ∈ s.sinceRestart) :
      Act env s (some (.nominateNow p relay (s.state = .failed)))
        (s.commitNomination .useCandidate ep relay cid tx)
  | publish (s : Session) : Act env s (some .publish) s.onGathered
  | announce (s : Session) (ep : Endpoint) (h : s.state = .connected) :
      Act env s none (s.emit (.onConnected ep))
  | probe (s : Session) (cid : Cid) (size : ℕ) (h : s.state = .connected) :
      Act env s none (({ s.drawn with pmtuInflight := some (env.txnId s.draws) } : Session).emit
        (.udpSend cid (.stun (s.pmtuMessage (env.txnId s.draws) size))))
  | probing (s : Session) (txn : TransactionId) (h : s.state = .connected) :
      Act env s none (s.emit (.mtuProbeSent txn))
  | armWait (s : Session) (hc : s.controlling = false) :
      Act env s none { s with nominationWaitArmed := true }
  | disarmWait (s : Session) : Act env s none { s with nominationWaitArmed := false }
  | refresh (s : Session) : Act env s (some .refresh) s.refreshConsent
  | unsent (s : Session) : Act env s none { s with consentMissed := s.consentMissed + 1 }
  | keepalive (s : Session) (txn : TransactionId) (hl : s.cfg.liteMode = false)
      (h : s.consentMissed + 1 < s.cfg.consentMaxFailures) :
      Act env s none
        (({ s with consentMissed := s.consentMissed + 1 } : Session).emit (.keepaliveSent txn))
  | lapse (s : Session) (h : s.state = .connected) :
      Act env s none
        (({ s with consentMissed := s.consentMissed + 1 } : Session).emit .consentLost)
  | flip (s : Session) : Act env s (some .flip) { s with controlling := !s.controlling }
  | exhaust (s : Session) (h : s.state = .checking)
      (hp : ∀ p ∈ s.checkList, p.isPending = false) :
      Act env s (some (.exhaust s)) (s.fail .checksExhausted)
  | expire (s : Session) (h : s.state ≠ .connected) :
      Act env s (some (.expire s.checksUnfinished)) (s.fail .nominationWait)
  | loseConsent (s : Session) (h : s.state = .connected)
      (hr : s.cfg.consentMaxRecovery ≤ s.consentRecoveryAttempts)
      (ha : ¬ (s.cfg.autoRestartOnConsentLoss = true ∧
        s.autoRestartAttempts < s.cfg.autoRestartMaxAttempts)) :
      Act env s (some .loseConsent) (s.fail .consentLoss)
  | restart (s : Session) (h : s.state ≠ .failed) : Act env s (some .restart) (s.reset env)
  | autoRestart (s : Session) (now : ℕ) (h : s.state = .connected)
      (hr : s.cfg.consentMaxRecovery ≤ s.consentRecoveryAttempts)
      (ha : s.autoRestartAttempts < s.cfg.autoRestartMaxAttempts) :
      Act env s (some .restart) ((s.countAutoRestart now).reset env)
  | close (s : Session) : Act env s (some .close) (s.setState .failed)
  | teardown (s : Session) : Act env s (some .teardown) { s.tearDownCids with nominatedCid := 0 }
  | rxBuffers (s : Session) (l : AList (fun _ : Cid => Bytes)) :
      Act env s (some .rxBuffers) { s with tcpRxBuffers := l }

abbrev Steps (env : Env) (A : Set Label) : Session → Session → Prop := Path (Act env) A

end LinkIce
