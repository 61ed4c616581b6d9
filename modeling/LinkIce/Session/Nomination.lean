import LinkIce.Session.Gather

/-! Nomination, consent freshness and the path-MTU probes that run on a nominated
pair. -/
namespace LinkIce
open Stun

namespace Session

def pmtuMessage (s : Session) (txn : TransactionId) (size : ℕ) : StunBuilder :=
  let b := ((⟨bindingRequest, txn, []⟩ : StunBuilder).addUsername
    (s.remoteUfrag ++ [0x3A] ++ s.localUfrag)).addPriority 0
  let b := if s.controlling then b.addIceControlling s.tiebreaker
    else b.addIceControlled s.tiebreaker
  ((b.addPaddingTo size).addIntegrity s.remotePwd).addFingerprint

def armPmtuTimer (s : Session) : Session :=
  if s.hasTimer then
    ({ s with pmtuProbeGen := s.pmtuProbeGen + 1 } : Session).post
      (.pmtuTimeout (s.pmtuProbeGen + 1))
  else s

/-- The probe goes over the UDP carrier whatever the nominated transport is. -/
def sendPmtuProbe (env : Env) (size : ℕ) (s : Session) : Session :=
  if s.nominatedCid = 0 ∨ !s.hasCarrier then s
  else
    let txn := env.txnId s.draws
    (({ s.drawn with pmtuInflight := some txn } : Session).emit
      (.udpSend s.nominatedCid (.stun (s.pmtuMessage txn size)))).armPmtuTimer

def noteMtuProbe (env : Env) (size : ℕ) (s : Session) : Session :=
  if s.nominatedCid = 0 ∨ !s.hasCarrier then s
  else { s.emit (.mtuProbeSent (env.txnId s.draws)) with
    mtuTrials := ⟨s.nominatedPath, size, none⟩ :: s.mtuTrials }

def noteMtuOutcome (acked : Bool) (s : Session) : Session :=
  { s with mtuTrials := s.mtuTrials.modifyHead fun t => { t with outcome := some acked } }

def startPathMtuProbe (env : Env) (s : Session) : Session :=
  match s.pmtuProbe with
  | none => s
  | some probe =>
    if s.state ≠ .connected ∨ s.pmtuInflight.isSome then s
    else
      match probe.nextProbeSize with
      | none => { s with effectiveMtu := probe.effective }
      | some size => (s.noteMtuProbe env size).sendPmtuProbe env size

def advancePmtu (env : Env) (f : PathMtuProbe → PathMtuProbe) (s : Session) : Session :=
  match s.pmtuProbe with
  | none => s
  | some probe =>
    let probe := f probe
    let s := { s with pmtuProbe := some probe, effectiveMtu := probe.effective }
    if probe.isComplete then s else s.startPathMtuProbe env

def onPathMtuProbeTimeout (env : Env) (s : Session) : Session :=
  if s.pmtuProbe.isNone ∨ s.pmtuInflight.isNone then s
  else advancePmtu env PathMtuProbe.onProbeLoss
    ({ s with pmtuInflight := none }.noteMtuOutcome false)

def refreshConsent (s : Session) : Session :=
  ({ s with consentMissed := 0 } : Session).emit .consentReset

/-- A response to the probe in flight; it also counts as consent. -/
def onPathMtuAck (env : Env) (s : Session) : Session :=
  (advancePmtu env PathMtuProbe.onProbeAck
    ({ s with pmtuInflight := none, pmtuProbeGen := s.pmtuProbeGen + 1 }.noteMtuOutcome
      true)).refreshConsent

def countAutoRestart (now : ℕ) (s : Session) : Session :=
  ({ s with
    autoRestartAttempts := s.autoRestartAttempts + 1
    autoRestartLast := now
    consentMissed := 0 } : Session).emit
      (.onAutoRestart (s.autoRestartAttempts + 1) s.cfg.autoRestartMaxAttempts)

/-- `notify_consent_loss_for_test`, which `on_keepalive` calls when recovery is spent. -/
def notifyConsentLoss (env : Env) (s : Session) : Session :=
  if s.cfg.autoRestartOnConsentLoss ∧ s.autoRestartAttempts < s.cfg.autoRestartMaxAttempts then
    let now := env.clock s.draws
    if s.autoRestartLast = 0 ∨ s.cfg.autoRestartBackoffMs * 1000 ≤ now - s.autoRestartLast then
      (s.drawn.countAutoRestart now).restart env
    else s.drawn.refreshConsent
  else s.fail .consentLoss

def keepaliveMessage (txn : TransactionId) : StunBuilder := ⟨bindingRequest, txn, []⟩

/-- The keepalive request carries no attribute at all. -/
def sendKeepalive (env : Env) (s : Session) : Session :=
  if s.nominatedCid = 0 then s
  else s.drawn.carrierSend (transportIsTcp s.nominatedTransport) s.nominatedCid
    (.stun (keepaliveMessage (env.txnId s.draws)))

def noteKeepalive (env : Env) (s : Session) : Session :=
  if s.nominatedCid = 0 ∨ !s.carrierUp (transportIsTcp s.nominatedTransport) then s
  else s.emit (.keepaliveSent (env.txnId s.draws))

def armKeepaliveTimer (s : Session) : Session :=
  if s.hasTimer then
    ({ s with keepaliveGen := s.keepaliveGen + 1 } : Session).post (.keepalive (s.keepaliveGen + 1))
  else s

/-- Too many keepalives without an answer: recovery checks first, then the restart policy. -/
def onConsentLost (env : Env) (s : Session) : Session :=
  if s.consentRecoveryAttempts < s.cfg.consentMaxRecovery then
    startChecking env ({ s with
      consentRecoveryAttempts := s.consentRecoveryAttempts + 1 } : Session).refreshConsent
  else s.notifyConsentLoss env

def onKeepalive (env : Env) (s : Session) : Session :=
  if s.state ≠ .connected ∨ s.cfg.liteMode then s
  else
    let s := { s with consentMissed := s.consentMissed + 1 }
    if s.cfg.consentMaxFailures ≤ s.consentMissed then (s.emit .consentLost).onConsentLost env
    else ((s.noteKeepalive env).sendKeepalive env).armKeepaliveTimer

/-- The writes at the head of `on_nominated`, in whatever state the session is. -/
def commitNomination (origin : NominationOrigin) (ep : Endpoint) (relay : Bool) (cid : Cid)
    (tx : TransportType) (s : Session) : Session :=
  let s := (s.emit (.nominated origin s.controlling ep relay cid tx)).setState .connected
  { s with
    checkGen := s.checkGen + 1
    nominationWaitGen := s.nominationWaitGen + 1
    nominationWaitArmed := false
    consentMissed := 0
    consentRecoveryAttempts := 0
    autoRestartAttempts := 0
    autoRestartLast := 0
    nominatedCid := cid
    nominatedTransport := tx
    nominatedEp := ep
    usesRelay := relay }

def beginPathMtu (env : Env) (s : Session) : Session :=
  if s.cfg.pmtuActiveProbing ∧ s.pmtuProbe.isNone then
    startPathMtuProbe env
      { s with pmtuProbe := some (PathMtuProbe.make s.cfg.pathMtu s.cfg.pmtuSearchSteps) }
  else s

/-- The rest of `on_nominated`: channel, parked data, callback, keepalive, MTU search. -/
def afterNomination (env : Env) (ep : Endpoint) (relay : Bool) (s : Session) : Session :=
  let s := if relay then s.turnBindChannel env ep else s
  (((s.flushPendingAppData env).emit (.onConnected ep)).onKeepalive env).beginPathMtu env

def onNominated (env : Env) (origin : NominationOrigin) (ep : Endpoint) (relay : Bool) (cid : Cid)
    (tx : TransportType) (s : Session) : Session :=
  (s.commitNomination origin ep relay cid tx).afterNomination env ep relay

end Session

end LinkIce
