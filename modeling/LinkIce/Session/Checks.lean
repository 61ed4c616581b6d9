import LinkIce.Session.CheckList

/-! Sending connectivity checks and the check scheduler. -/
namespace LinkIce
open Stun

def elapsed (now sent : ℕ) : ℕ := (now + 2 ^ 64 - sent) % 2 ^ 64

namespace CheckPair

def endpoint (net : Inet) (p : CheckPair) : Endpoint := ⟨p.rem.addressStr net, p.rem.port⟩

def bestValid (ps : List CheckPair) : Option ℕ :=
  (ps.zipIdx.foldl (fun (best : Option (CheckPair × ℕ)) pi =>
    if pi.1.valid && best.all fun b => b.1.priority < pi.1.priority then some pi else best)
    none).map (·.2)

end CheckPair

namespace Session

def retryLimit (s : Session) : ℕ := s.cfg.maxCheckRetries % 256

def turnAllocated (s : Session) : Bool := s.turn.any (·.allocated)

def checkMessage (s : Session) (p : CheckPair) : StunBuilder :=
  let b := ((⟨bindingRequest, p.txnId, []⟩ : StunBuilder).addUsername
    (s.remoteUfrag ++ [0x3A] ++ s.localUfrag)).addPriority p.loc.priority
  let b :=
    if s.controlling then
      let b := b.addIceControlling s.tiebreaker
      if s.cfg.aggressiveNomination || p.nomineeCheckSent then b.addUseCandidate else b
    else b.addIceControlled s.tiebreaker
  (b.addIntegrity s.remotePwd).addFingerprint

def noteRelayCheck (ep : Endpoint) (s : Session) : Session :=
  { s with relayChecks := (ep, (s.turn.map (·.permissions)).getD []) :: s.relayChecks }

/-- The second half of `send_check`: pick the path of the pair and send. A passive TCP
pair waits for the peer. -/
def transmit (env : Env) (p : CheckPair) (b : StunBuilder) (s : Session) : Session :=
  let ep := p.endpoint env.net
  if transportIsTcp p.transportType then
    if p.transportType = .tcpPassive then s
    else
      let r := s.ensureRemoteTcpCid env ep
      if r.1 = 0 then r.2 else r.2.carrierSend true r.1 (.stun b)
  else if p.loc.type = .relay ∧ s.turnAllocated then
    ((s.relayCidForEndpoint ep).2.noteRelayCheck ep).emit (.relaySend ep (.stun b))
  else
    let r := s.ensureRemoteCid env ep
    if r.1 = 0 then r.2 else r.2.carrierSend false r.1 (.stun b)

def sendCheck (env : Env) (i : ℕ) (s : Session) : Session :=
  match s.checkList[i]? with
  | none => s
  | some p =>
    if s.retryLimit ≤ p.retries then s.failPair i
    else
      ((s.modifyPair i fun p =>
        { p with retries := p.retries + 1, txnSendUs := env.clock s.draws }).drawn).transmit env p
          (s.checkMessage p)

def startCheck (env : Env) (i : ℕ) (s : Session) : Session :=
  (s.modifyPair i fun p => { p with state := .inProgress }).sendCheck env i

/-- Regular nomination: flag the best valid pair and repeat its check. -/
def pickNominee (env : Env) (s : Session) : Session :=
  match CheckPair.bestValid s.checkList with
  | none => s
  | some i =>
    (({ s with nomineeSelected := true } : Session).modifyPair i fun p =>
      { p with nomineeCheckSent := true }).sendCheck env i

/-- `state_ = Failed` followed by the callback. -/
def fail (origin : FailureOrigin) (s : Session) : Session :=
  ((s.emit (.failedBy origin s.state s.controlling s.checkList s.consentRecoveryAttempts
    s.autoRestartAttempts)).setState .failed).emit .onFailed

def baseRto (s : Session) : ℕ := s.cfg.checkIntervalMs * 5 * 1000

/-- First pass of `run_next_check` at one pair: retransmit, or fail when the retries
are spent. -/
def retransmitPair (env : Env) (now : ℕ) (i : ℕ) (s : Session) : Session :=
  match s.checkList[i]? with
  | none => s
  | some p =>
    if p.state ≠ .inProgress then s
    else if s.retryLimit ≤ p.retries then
      if p.txnSendUs ≠ 0 ∧ elapsed now p.txnSendUs < s.baseRto <<< (s.cfg.maxCheckRetries - 1)
      then s else s.failPair i
    else if p.txnSendUs ≠ 0 ∧ elapsed now p.txnSendUs < s.baseRto <<< min p.retries 5 then s
    else s.sendCheck env i

def retransmitAll (env : Env) (now : ℕ) (is : List ℕ) (s : Session) : Session :=
  is.foldl (fun s i => s.retransmitPair env now i) s

/-- Second pass: start Waiting pairs until the concurrency cap is reached. -/
def promoteWaiting (env : Env) : List ℕ → Session → Session
  | [], s => s
  | i :: is, s =>
    if checkConcurrencyCap ≤ s.inProgressCount then s
    else
      match s.checkList[i]? with
      | none => s
      | some p =>
        promoteWaiting env is
          (if p.state = .waiting ∧ p.retries < s.retryLimit then s.startCheck env i else s)

def armCheckTimer (s : Session) : Session :=
  if s.hasTimer then
    ({ s with checkGen := s.checkGen + 1 } : Session).post (.checkTick (s.checkGen + 1))
  else s

def armNominationWait (s : Session) : Session :=
  let s := { s with nominationWaitArmed := true }
  if s.hasTimer then
    ({ s with nominationWaitGen := s.nominationWaitGen + 1 } : Session).post
      (.nominationWait (s.nominationWaitGen + 1))
  else s

/-- The list has no pending pair. A controlled session with a valid pair waits for
USE-CANDIDATE once; otherwise the session fails. -/
def checksExhausted (s : Session) : Session :=
  if s.state = .connected then s
  else if !s.controlling && !s.nominationWaitArmed && decide (0 < s.cfg.nominationWaitMs) &&
      s.checkList.any (·.valid) then s.armNominationWait
  else s.fail .checksExhausted

def indices (s : Session) : List ℕ := List.range s.checkList.length

/-- The two passes of `run_next_check`. The flag tells whether a pair was pending
between them. -/
def checkPasses (env : Env) (s : Session) : Bool × Session :=
  let s := s.unfreezeStuckPairs
  let s := s.drawn.retransmitAll env (env.clock s.draws) s.indices
  (s.checkList.any (·.isPending), s.promoteWaiting env s.indices)

def runNextCheck (env : Env) (s : Session) : Session :=
  if s.state ≠ .checking then s
  else
    let r := s.checkPasses env
    if r.1 then r.2.armCheckTimer else r.2.checksExhausted

/-- Happy eyeballs: at most one check per address family goes out at once. -/
def preFire (env : Env) : List ℕ → Bool → Bool → Session → Session
  | [], _, _, s => s
  | i :: is, v4, v6, s =>
    if v4 && v6 then s
    else
      match s.checkList[i]? with
      | none => s
      | some p =>
        if p.state ≠ .waiting then preFire env is v4 v6 s
        else if p.loc.family = .ipv4 ∧ !v4 then preFire env is true v6 (s.startCheck env i)
        else if p.loc.family = .ipv6 ∧ !v6 then preFire env is v4 true (s.startCheck env i)
        else preFire env is v4 v6 s

def beginChecks (env : Env) (s : Session) : Session :=
  if s.cfg.liteMode then s
  else (s.preFire env s.indices false false).runNextCheck env

def onNominationWaitExpired (s : Session) : Session :=
  if s.state = .connected then s else s.fail .nominationWait

/-- `build_check_list(); current_check_ = 0; run_next_check();` -/
def recheck (env : Env) (s : Session) : Session :=
  runNextCheck env { s.buildCheckList env with currentCheck := 0 }

/-- `state_ = Checking; build_check_list(); begin_checks();` -/
def startChecking (env : Env) (s : Session) : Session :=
  ((s.setState .checking).buildCheckList env).beginChecks env

/-- Switch the role; a running check list is rebuilt for the new priorities. -/
def flipRole (env : Env) (s : Session) : Session :=
  let s := { s with controlling := !s.controlling }
  if s.state = .checking ∧ s.localCandidates ≠ [] ∧ s.remoteCandidates ≠ [] then s.recheck env
  else s

/-- The flag tells whether we switched. -/
def handleRoleConflict (env : Env) (senderControlling : Bool) (senderTiebreaker : ℕ)
    (s : Session) : Bool × Session :=
  if senderControlling ≠ s.controlling then (false, s)
  else if senderTiebreaker ≤ s.tiebreaker then (false, s)
  else (true, s.flipRole env)

def failTimedOutPair (net : Inet) (ep : Endpoint) (s : Session) (i : ℕ) : Session :=
  match s.checkList[i]? with
  | none => s
  | some p =>
    if p.state = .inProgress ∧ transportIsTcp p.transportType ∧ p.endpoint net = ep then
      s.failPair i
    else s

def onTcpConnectTimeout (env : Env) (cid : Cid) (s : Session) : Session :=
  match s.cidToEndpointTcp.lookup cid with
  | none => s
  | some info =>
    if !transportIsTcp info.transport then s
    else
      let s := { s with
        cidToEndpointTcp := s.cidToEndpointTcp.erase cid
        tcpRxBuffers := s.tcpRxBuffers.erase cid }
      s.indices.foldl (failTimedOutPair env.net info.ep) s

end Session

end LinkIce
