import LinkIce.Session.SignalPaths

/-! Paths of inbound STUN, with the labels each message licenses. -/
namespace LinkIce
open Stun List

namespace Session

variable {env : Env} {A : Set Label} {s t : Session} {cid : Cid} {ep : Endpoint} {fromTcp : Bool}
  {i : ℕ} {m : StunMessage} {p : CheckPair} {net : Inet} {mapped : MappedAddress}
  {tx : TransportType}

theorem learnPrflx_core :
    (s.learnPrflx env m p).core =
      { s.core with localCandidates := (s.learnPrflx env m p).localCandidates } := by
  unfold learnPrflx
  split
  · rfl
  · split_ifs <;> rfl

theorem prflxCandidate_own : (prflxCandidate net mapped).Own := by
  have hset : (Candidate.setAddress net { type := .prflx } mapped.ip).Shaped :=
    setAddress_shaped ⟨by simp, by simp, by simp⟩
  exact ⟨⟨hset.type, hset.family, hset.hostname⟩,
    ⟨by simp [prflxCandidate, setAddress_listing.1], computePriority_pos (by decide)⟩⟩

theorem prflxCandidate_type :
    (prflxCandidate net mapped).type = .prflx := setAddress_type

def showsPrflx (env : Env) (m : StunMessage) (p : CheckPair) (c : Candidate) : Prop :=
  ∃ mapped ∈ m.xorMapped, c = prflxCandidate env.net mapped ∧
    (mapped.ip ≠ p.loc.addressStr env.net ∨ mapped.port ≠ p.loc.port)

theorem learnPrflx_steps (hA : ∀ c, showsPrflx env m p c → .prflx c ∈ A) :
    Steps env A s (s.learnPrflx env m p) := by
  unfold learnPrflx
  split
  · exact .refl s
  · rename_i mapped hm
    split_ifs with hd
    · exact .visible (.prflx s _ prflxCandidate_own prflxCandidate_type)
        (hA _ ⟨mapped, hm, rfl, hd⟩)
    · exact .refl s

theorem noteResponse_core (env : Env) (m : StunMessage) (p : CheckPair) (s : Session) :
    (s.noteResponse env m p).core =
      { s.core with localCandidates := (s.noteResponse env m p).localCandidates } := by
  rw [noteResponse, learnPrflx_core,
    show ((s.sampleRtt env p).noteCandidateTypes p).core = s.core from (sampleRtt_quiet env s).core]

theorem noteResponse_steps (m : StunMessage) (p : CheckPair)
    (hA : ∀ c, showsPrflx env m p c → .prflx c ∈ A) :
    Steps env A s (s.noteResponse env m p) := by
  refine Path.after (learnPrflx_steps hA) (steps_quiet ?_)
  exact (sampleRtt_quiet env s).trans (.silent rfl le_rfl)

theorem recordSuccess_core (env : Env) (m : StunMessage) (i : ℕ) (p : CheckPair) (s : Session) :
    (s.recordSuccess env m i p).core =
      { s.core with
        localCandidates := (s.recordSuccess env m i p).localCandidates
        checkList := (s.recordSuccess env m i p).checkList } := by
  have hs : (s.recordSuccess env m i p).core = { (s.noteResponse env m p).core with
      checkList := (s.recordSuccess env m i p).checkList } := by
    rw [recordSuccess]
    generalize s.noteResponse env m p = t
    rfl
  rw [hs, noteResponse_core]
  rfl

theorem nominatePair_steps (hs : s.state = .checking) (hc : s.controlling = true)
    (hn : s.cfg.aggressiveNomination = true ∨ p.nomineeCheckSent = true)
    (hp : .checkSucceeded p ∈ s.sinceRestart) (hA : .nominateOwn p ∈ A)
    (hl : NominationLicence A s) :
    Steps env A s (s.nominatePair env p) := by
  have hq := nomineeCid_quiet env s p
  have hl' := hl.congr hq.cfg (congrArg Core.remoteEndOfCandidates hq.core)
  refine (steps_quiet hq).trans (Path.after (hl'.afterCommit _ _ _ _ _) (.visible
    (.nominateOwn _ p _ _ ?_ ?_ ?_ ((Extends.of_quiet hq).mem_sinceRestart hp)) hA))
  · rw [hq.state, hs]
  · rw [hq.controlling, hc]
  · rwa [hq.cfg]

theorem nominateDeferred_steps (hs : s.state = .checking) (hc : s.controlling = false)
    (hn : ∃ q ∈ s.checkList, q.pendingNomination = true) (hp : .checkSucceeded p ∈ s.sinceRestart)
    (hA : .nominateDeferred p (s.slotFits env p) ∈ A) (hl : NominationLicence A s) :
    Steps env A s (s.nominateDeferred env i p) := by
  have hl' : NominationLicence A (s.modifyPair i fun p => { p with pendingNomination := false }) :=
    hl.congr rfl rfl
  exact Path.after (hl'.afterCommit _ _ _ _ _)
    (.visible (.nominateDeferred s i p hs hc hn hp) hA)

/-! ### What a message licenses -/

/-- The response belongs to a check: it does not answer a path-MTU probe and the session
is still checking. -/
def answersCheck (s : Session) (m : StunMessage) : Prop :=
  m.msgType = bindingResponse ∧ s.pmtuInflight ≠ some m.txnId ∧ s.state = .checking

def nominatesOwn (s : Session) (m : StunMessage) (p : CheckPair) : Prop :=
  s.answersCheck m ∧ (∃ i, s.pairOf m.txnId = some (i, p)) ∧ s.controlling = true ∧
    (s.cfg.aggressiveNomination = true ∨ p.nomineeCheckSent = true)

/-- The controlled session completes a nomination it had put off. -/
def nominatesDeferred (s : Session) (m : StunMessage) (p : CheckPair) : Prop :=
  s.answersCheck m ∧ (∃ i, s.pairOf m.txnId = some (i, p)) ∧ s.controlling = false ∧
    p.pendingNomination = true

def picksOn (s : Session) (env : Env) (m : StunMessage) (leaves : Bool) : Prop :=
  s.answersCheck m ∧ ∃ i p, s.pairOf m.txnId = some (i, p) ∧ s.controlling = true ∧
    s.cfg.aggressiveNomination = false ∧ p.nomineeCheckSent = false ∧
    s.nomineeSelected = false ∧ p.valid = false ∧
    leaves = (s.recordSuccess env m i p).pickLeaves env

def givesWay (s : Session) (m : StunMessage) : Prop :=
  s.sameRole m = true ∧ m.iceControlling.isSome = s.controlling ∧
    s.tiebreaker < senderTiebreaker m

def flipRebuilds (s : Session) : Prop :=
  s.state = .checking ∧ s.localCandidates ≠ [] ∧ s.remoteCandidates ≠ []

def flipsOn (s : Session) (m : StunMessage) : Prop :=
  (m.msgType = bindingError ∧ m.errorCode = some 487) ∨
    (m.msgType = bindingRequest ∧ s.givesWay m)

def rejectsOn (s : Session) (m : StunMessage) : Prop :=
  m.msgType = bindingRequest ∧ s.sameRole m = true ∧ ¬ s.givesWay m

def nomineeSucceeded (s : Session) (env : Env) (m : StunMessage) (cid : Cid) (fromTcp : Bool)
    (p : CheckPair) : Prop :=
  m.useCandidate = true ∧ (s.endpointOf fromTcp cid).ip ≠ [] ∧ p.state = .succeeded ∧
    ∃ i, s.nominationPair env (s.endpointOf fromTcp cid) (nominationTransport fromTcp) = some i ∧
      s.checkList[i]? = some p

/-- The session is controlled when it acts on a USE-CANDIDATE request: it was, or it gives
way and keeps its check list. -/
def nominatesNow (s : Session) (env : Env) (m : StunMessage) (cid : Cid) (fromTcp : Bool)
    (p : CheckPair) (relay : Bool) : Prop :=
  m.msgType = bindingRequest ∧ s.nomineeSucceeded env m cid fromTcp p ∧
    relay = s.arrivedByRelay fromTcp cid ∧
    ((s.sameRole m = false ∧ s.controlling = false) ∨
      (s.givesWay m ∧ s.controlling = true ∧ ¬ s.flipRebuilds))

def nominatesOn (s : Session) (env : Env) (m : StunMessage) (cid : Cid) (fromTcp : Bool) : Prop :=
  (∃ p, s.nominatesOwn m p) ∨ (∃ p, s.nominatesDeferred m p) ∨
    ∃ p relay, s.nominatesNow env m cid fromTcp p relay

/-- The keepalive that follows a nomination already loses consent. -/
def losesConsentAtOnce (s : Session) : Prop :=
  s.cfg.liteMode = false ∧ s.cfg.consentMaxFailures ≤ 1

/-- A plain request reaches a controlled session whose slot was filled before the last
restart. -/
def readsStaleSlot (s : Session) (m : StunMessage) : Prop :=
  m.useCandidate = false ∧ s.pendingNomEp.ip ≠ [] ∧ s.slotFresh = false

def rebuildsOn (s : Session) (env : Env) (m : StunMessage) (cid : Cid) (fromTcp : Bool) : Prop :=
  (s.flipsOn m ∧ s.flipRebuilds) ∨
    (s.nominatesOn env m cid fromTcp ∧ s.losesConsentAtOnce ∧ 0 < s.cfg.consentMaxRecovery)

/-- The pair is marked if there is one, and the slot is filled. -/
def deferNomination (env : Env) (ep : Endpoint) (cid : Cid) (fromTcp : Bool) (s : Session) :
    Session :=
  let tx := nominationTransport fromTcp
  ((s.nominationPair env ep tx).elim s fun i => s.markPendingNomination i).stashNomination ep
    (s.arrivedByRelay fromTcp cid) cid tx

theorem deferNomination_controlling :
    (s.deferNomination env ep cid fromTcp).controlling = s.controlling := by
  unfold deferNomination
  dsimp only
  cases s.nominationPair env ep (nominationTransport fromTcp) <;> rfl

def givesUpOnRequest (env : Env) (m : StunMessage) (cid : Cid) (fromTcp : Bool) (s u : Session) :
    Prop :=
  let ep := s.endpointOf fromTcp cid
  m.useCandidate = true ∧ s.controlling = false ∧ ep.ip ≠ [] ∧
    ((s.answerRequest m cid fromTcp).deferNomination env ep cid fromTcp).givesUp env u

/-- The list is exhausted: a change of roles finds no pair, the keepalive that follows a
nomination starts checks without any, or USE-CANDIDATE runs the scheduler. -/
def exhaustsOn (s : Session) (env : Env) (m : StunMessage) (cid : Cid) (fromTcp : Bool)
    (u : Session) : Prop :=
  (s.flipsOn m ∧ s.flipRebuilds ∧
    .exhaust u ∈ ({ s with controlling := !s.controlling } : Session).rechecks env) ∨
  (s.nominatesOn env m cid fromTcp ∧ s.losesConsentAtOnce ∧ 0 < s.cfg.consentMaxRecovery ∧
    u.Untried ∧ u.remoteEndOfCandidates = s.remoteEndOfCandidates) ∨
  (m.msgType = bindingRequest ∧
    ((s.sameRole m = false ∧ s.givesUpOnRequest env m cid fromTcp u) ∨
      (s.givesWay m ∧ (s.flipRole env).givesUpOnRequest env m cid fromTcp u)))

/-- The check that a request from `ep` would trigger has no permission at the relay. -/
def triggerStrays (env : Env) (ep : Endpoint) (s : Session) : Bool :=
  let rem := triggeredRemote env.net ep
  (s.localCandidates.find? fun l => l.family = rem.family).any fun l =>
    s.turn.any fun k => k.allocated && !k.coversPair env.net (s.triggeredPair env l rem)

/-- The request up to the point where it may trigger a check. -/
def requestHandled (env : Env) (m : StunMessage) (cid : Cid) (fromTcp : Bool) (s : Session) :
    Session :=
  let ep := s.endpointOf fromTcp cid
  let s := s.answerRequest m cid fromTcp
  if m.useCandidate ∧ !s.controlling ∧ ep.ip ≠ [] then s.onUseCandidate env ep cid fromTcp else s

def triggersStray (env : Env) (m : StunMessage) (cid : Cid) (fromTcp : Bool) (s : Session) : Prop :=
  let t := if s.sameRole m then s.flipRole env else s
  (t.requestHandled env m cid fromTcp).triggerStrays env (t.endpointOf fromTcp cid) = true

/-- A request from `ep` opens a pair although the cap is reached. -/
def opensFull (env : Env) (ep : Endpoint) (s : Session) : Bool :=
  ep.ip ≠ [] && !s.cfg.liteMode && (s.checkList.all fun p => p.endpoint env.net ≠ ep) &&
    (s.localCandidates.any fun l => l.family = (triggeredRemote env.net ep).family) &&
    checkConcurrencyCap ≤ s.inProgressCount

def triggersFull (env : Env) (m : StunMessage) (cid : Cid) (fromTcp : Bool) (s : Session) : Prop :=
  let t := if s.sameRole m then s.flipRole env else s
  (s.sameRole m = true → s.givesWay m) ∧
    (t.requestHandled env m cid fromTcp).opensFull env (t.endpointOf fromTcp cid) = true

def learnsPrflx (env : Env) (m : StunMessage) (s : Session) (c : Candidate) : Prop :=
  s.answersCheck m ∧ ∃ i p, s.pairOf m.txnId = some (i, p) ∧ showsPrflx env m p c

/-- The message makes a lite session run its check list. -/
def liteChecksOn (m : StunMessage) (s : Session) : Prop :=
  s.cfg.liteMode = true ∧ s.state = .checking ∧
    (s.flipsOn m ∨ (m.msgType = bindingRequest ∧ m.useCandidate = true))

/-- The labelled actions that an authenticated message can lead to. -/
def stunAllowed (env : Env) (m : StunMessage) (cid : Cid) (fromTcp : Bool) (s : Session) :
    Set Label
  | .rebuild => s.rebuildsOn env m cid fromTcp
  | .exhaust u => s.exhaustsOn env m cid fromTcp u
  | .flip => s.flipsOn m
  | .respond txn uc => m.msgType = bindingRequest ∧ txn = m.txnId ∧ uc = m.useCandidate
  | .reject => s.rejectsOn m
  | .liteCheck => s.liteChecksOn m
  | .prflx c => s.learnsPrflx env m c
  | .trigger stale strays full =>
    m.msgType = bindingRequest ∧ (stale = true → s.readsStaleSlot m ∨
      (s.losesConsentAtOnce ∧ ∃ p relay, s.nominatesNow env m cid fromTcp p relay)) ∧
      (strays = true → s.triggersStray env m cid fromTcp) ∧
      (full = true → s.triggersFull env m cid fromTcp)
  | .pick leaves => s.picksOn env m leaves
  | .nominateOwn p => s.nominatesOwn m p
  | .nominateDeferred p fits => s.nominatesDeferred m p ∧ fits = s.slotFits env p
  | .nominateNow p relay revives =>
    s.nominatesNow env m cid fromTcp p relay ∧ revives = decide (s.state = .failed)
  | .gather false | .restart | .loseConsent | .hosts | .work | .release | .publish =>
    s.nominatesOn env m cid fromTcp ∧ s.losesConsentAtOnce ∧ s.cfg.consentMaxRecovery = 0
  | .refresh =>
    (m.msgType = bindingResponse ∧ (s.pmtuInflight = some m.txnId ∨ s.state = .connected)) ∨
      (s.nominatesOn env m cid fromTcp ∧ s.losesConsentAtOnce)
  | .deliver _ _ | .dequeue _ | .resolve | .srflx _ | .merge _ | .gather true | .forget | .close
  | .teardown | .rxBuffers | .expire _ | .relay _ | .takeover _ | .restate _ _ => False

theorem stunAllowed_licence (h : s.nominatesOn env m cid fromTcp) :
    NominationLicence (s.stunAllowed env m cid fromTcp) s where
  refresh hl hf := .inr ⟨h, hl, hf⟩
  recover hl hf hr := .inr ⟨h, ⟨hl, hf⟩, hr⟩
  exhaust hl hf hr _ hu he := .inr (.inl ⟨h, ⟨hl, hf⟩, hr, hu, he⟩)
  restart hl hf hr := by
    refine ⟨⟨h, ⟨hl, hf⟩, hr⟩, ⟨h, ⟨hl, hf⟩, hr⟩, fun l hg => ?_, ⟨h, ⟨hl, hf⟩, hr⟩⟩
    cases l with
    | hosts | work | release | publish => exact ⟨h, ⟨hl, hf⟩, hr⟩
    | _ => exact hg.elim

/-! ### Responses -/

theorem pairOf_eq_some {txn : TransactionId} :
    s.pairOf txn = some (i, p) ↔
      s.checkList.findIdx? (·.txnId = txn) = some i ∧ s.checkList[i]? = some p := by
  simp [pairOf, Option.bind_eq_some_iff, Option.map_eq_some_iff]

theorem slotFits_congr (h : SameSlot s t) : t.slotFits env p = s.slotFits env p := by
  rw [slotFits, slotFits, h.ep, h.relay, h.tx]

theorem recordSuccess_pending (hp : (s.noteResponse env m p).checkList[i]? = some p)
    (hn : p.pendingNomination = true) :
    ∃ q ∈ (s.recordSuccess env m i p).checkList, q.pendingNomination = true := by
  rw [recordSuccess]
  generalize s.noteResponse env m p = t at hp ⊢
  obtain ⟨q, hq, hr⟩ := exists_right_of_mem (CheckPair.unfreezeSiblings_repaints p.loc.foundation
    p.rem.foundation (t.checkList.modify i fun p => { p with valid := true, state := .succeeded }))
    (a := { p with valid := true, state := .succeeded }) (by
      refine mem_of_getElem? (i := i) ?_
      simp [hp])
  refine ⟨q, hq, ?_⟩
  rw [hr.1]
  exact hn

theorem handleCheckResponse_steps (hm : m.msgType = bindingResponse)
    (hp : s.pmtuInflight ≠ some m.txnId) :
    Steps env (s.stunAllowed env m cid fromTcp) s (s.handleCheckResponse env m) := by
  unfold handleCheckResponse
  split
  · exact .refl s
  · rename_i hs
    have hs' := not_not.mp hs
    split
    · exact .refl s
    · rename_i i p hi
      have hnote := noteResponse_core env m p s
      have hpair : (s.noteResponse env m p).checkList[i]? = some p := by
        rw [show (s.noteResponse env m p).checkList = s.checkList from
          congrArg Core.checkList hnote]
        exact (pairOf_eq_some.mp hi).2
      have hans : s.answersCheck m := ⟨hm, hp, hs'⟩
      have hshow (c : Candidate) (hc : showsPrflx env m p c) :
          .prflx c ∈ s.stunAllowed env m cid fromTcp := ⟨hans, i, p, hi, hc⟩
      refine (noteResponse_steps m p hshow).trans
        ((Path.silent (.succeed _ i p ((congrArg Core.state hnote).trans hs') hpair)).trans ?_)
      have hcore := recordSuccess_core env m i p s
      have hmem : .checkSucceeded p ∈ (s.recordSuccess env m i p).sinceRestart :=
        mem_sinceRestart_self (by simp)
      change Steps env _ (s.recordSuccess env m i p) _
      generalize hr : s.recordSuccess env m i p = r at hcore hmem ⊢
      have hst : r.state = .checking := (congrArg Core.state hcore).trans hs'
      have hcfg : r.cfg = s.cfg := congrArg Core.cfg hcore
      have hctl : r.controlling = s.controlling := congrArg Core.controlling hcore
      have hsel : r.nomineeSelected = s.nomineeSelected := congrArg Core.nomineeSelected hcore
      have heoc : r.remoteEndOfCandidates = s.remoteEndOfCandidates :=
        congrArg Core.remoteEndOfCandidates hcore
      unfold onPairSucceeded
      split_ifs with hc hn hn hk
      · have hc' : r.controlling = false := by simpa using hc
        have hd : s.nominatesDeferred m p := ⟨hans, ⟨i, hi⟩, hctl.symm.trans hc', hn⟩
        have hpend : ∃ q ∈ r.checkList, q.pendingNomination = true := by
          rw [← hr]
          exact recordSuccess_pending hpair hn
        have hfits : r.slotFits env p = s.slotFits env p :=
          slotFits_congr ⟨congrArg Core.pendingNomEp hcore, congrArg Core.pendingNomRelay hcore,
            congrArg Core.pendingNomCid hcore, congrArg Core.pendingNomTx hcore⟩
        exact nominateDeferred_steps hst hc' hpend hmem ⟨hd, hfits⟩
          ((stunAllowed_licence (.inr (.inl ⟨p, hd⟩))).congr hcfg heoc)
      · exact .refl _
      · have hc' : r.controlling = true := by simpa using hc
        have hn' : r.cfg.aggressiveNomination = true ∨ p.nomineeCheckSent = true := by
          simpa using hn
        have ho : s.nominatesOwn m p := ⟨hans, ⟨i, hi⟩, hctl.symm.trans hc', hcfg ▸ hn'⟩
        exact nominatePair_steps hst hc' hn' hmem ho
          ((stunAllowed_licence (.inl ⟨p, ho⟩)).congr hcfg heoc)
      · simp only [Bool.not_eq_true', Bool.not_eq_false, Bool.or_eq_true, not_or,
          Bool.not_eq_true, Bool.and_eq_true] at hc hn hk
        exact pickNominee_steps hk.1 hc hn.1 fun _ => ⟨hans, i, p, hi, hctl.symm.trans hc,
          hcfg ▸ hn.1, hn.2, hsel.symm.trans hk.1, hk.2, by rw [hr]⟩
      · exact .refl _

theorem handleSuccessResponse_steps (hm : m.msgType = bindingResponse) :
    Steps env (s.stunAllowed env m cid fromTcp) s (s.handleSuccessResponse env m) := by
  unfold handleSuccessResponse
  split_ifs with hp hs
  · exact onPathMtuAck_steps (.inl ⟨hm, .inl hp⟩)
  · exact .visible (.refresh s) (.inl ⟨hm, .inr hs⟩)
  · exact handleCheckResponse_steps hm hp

theorem flipRole_stunAllowed (hf : s.flipsOn m) :
    Steps env (s.stunAllowed env m cid fromTcp) s (s.flipRole env) := by
  refine flipRole_steps hf fun h₁ h₂ h₃ => subset_of_checkLabels rechecks_checkLabels ?_ ?_ ?_
  · exact .inl ⟨hf, h₁, h₂, h₃⟩
  · exact fun u hu => .inl ⟨hf, ⟨h₁, h₂, h₃⟩, hu⟩
  · exact fun hl => ⟨hl.1, hl.2, .inl hf⟩

theorem handleErrorResponse_steps (hm : m.msgType = bindingError) :
    Steps env (s.stunAllowed env m cid fromTcp) s (s.handleErrorResponse env m) := by
  unfold handleErrorResponse
  split_ifs with he
  · exact flipRole_stunAllowed (.inl ⟨hm, he⟩)
  · split
    exacts [.refl s, failPair_steps _]

/-! ### Requests -/

theorem arrivedByRelay_reply (fromTcp tcp : Bool) (cid cid' : Cid) (ep : Endpoint)
    (b : StunBuilder) (s : Session) :
    (s.reply fromTcp cid ep b).arrivedByRelay tcp cid' = s.arrivedByRelay tcp cid' := by
  rcases reply_eq with h | ⟨e, -, h⟩
  all_goals rw [h]
  rfl

theorem nominationPair_spec (hi : s.nominationPair env ep tx = some i)
    (hp : s.checkList[i]? = some p) : p.endpoint env.net = ep ∧ p.transportType = tx := by
  obtain ⟨hlt, hpi, -⟩ := List.findIdx?_eq_some_iff_getElem.mp hi
  have : s.checkList[i] = p := (List.getElem?_eq_some_iff.mp hp).2
  simpa [this] using hpi

theorem onUseCandidate_steps (ep : Endpoint) (cid : Cid) (fromTcp : Bool)
    (hc : s.controlling = false)
    (hr : ∃ txn, .requestReceived txn true ep cid (nominationTransport fromTcp)
      (s.arrivedByRelay fromTcp cid) ∈ s.sinceRestart)
    (hA : ∀ i p, s.nominationPair env ep (nominationTransport fromTcp) = some i →
      s.checkList[i]? = some p → p.state = .succeeded →
      .nominateNow p (s.arrivedByRelay fromTcp cid) (s.state = .failed) ∈ A ∧
        NominationLicence A s)
    (hx : ∀ u, (s.deferNomination env ep cid fromTcp).givesUp env u → .exhaust u ∈ A)
    (hl : s.cfg.liteMode = true → s.state = .checking → .liteCheck ∈ A) :
    Steps env A s (s.onUseCandidate env ep cid fromTcp) := by
  unfold deferNomination at hx
  unfold onUseCandidate
  dsimp only at hx ⊢
  split
  · rename_i hi
    rw [hi] at hx
    exact Path.after (runNextCheck_steps hx hl) (.silent (.stash s ep _ cid _ hr))
  · rename_i i hi
    rw [hi] at hx
    split
    · rename_i hs
      obtain ⟨p, hp, hps'⟩ : ∃ p, s.checkList[i]? = some p ∧ p.state = .succeeded := by
        cases hp : s.checkList[i]? with
        | none => simp [hp] at hs
        | some p => exact ⟨p, rfl, by simpa [hp] using hs⟩
      obtain ⟨he, ht⟩ := nominationPair_spec hi hp
      obtain ⟨hN, hlic⟩ := hA i p hi hp hps'
      refine Path.after (hlic.afterCommit _ _ _ _ _) ?_
      exact .visible (.nominateNow s p ep _ cid _ hc (mem_of_getElem? hp) hps' he ht hr) hN
    · exact Path.after (runNextCheck_steps hx hl) (.silent (.defer s i ep _ cid _ hr))

theorem maybeTriggerCheckFromPeer_steps (ep : Endpoint)
    (hA : ∀ stale strays full : Bool, (stale = true → ep.ip ≠ [] ∧ s.controlling = false ∧
      s.pendingNomEp.ip ≠ [] ∧ s.slotFresh = false) →
      (strays = true → s.triggerStrays env ep = true) →
      (full = true → s.opensFull env ep = true) → .trigger stale strays full ∈ A) :
    Steps env A s (s.maybeTriggerCheckFromPeer env ep) := by
  unfold maybeTriggerCheckFromPeer
  split
  · exact .refl s
  · rename_i hep
    split
    · exact .refl s
    · rename_i hknown
      dsimp only
      split
      · exact .refl s
      · rename_i l hl
        have hlite : s.cfg.liteMode = false := by
          simp only [not_or, Bool.not_eq_true] at hep
          exact hep.2.2
        refine (Path.visible (.trigger s l (triggeredRemote env.net ep) rfl)
          (hA _ _ _ ?_ ?_ fun hfull => ?_)).trans ?_
        · simp only [Bool.and_eq_true, Bool.not_eq_true', triggeredPair, decide_eq_true_eq]
          exact fun h => ⟨fun he => hep (.inl he), h.1.1, h.1.2.1, h.2⟩
        · intro h
          rw [triggerStrays, hl]
          exact h
        · have hnew : ∀ p ∈ s.checkList, p.endpoint env.net ≠ ep := by simpa using hknown
          have hlocal : ∃ l ∈ s.localCandidates, l.family = (triggeredRemote env.net ep).family :=
            ⟨l, mem_of_find?_eq_some hl, by simpa using List.find?_some hl⟩
          simp only [opensFull, hlite, Bool.and_eq_true]
          exact ⟨⟨⟨⟨by simpa using fun he => hep (.inl he), rfl⟩, by simpa using hnew⟩,
            by simpa using hlocal⟩, hfull⟩
        · unfold pushTriggered
          dsimp only
          split_ifs
          exacts [.silent (.check _ _ hlite), .refl _]

theorem sendPmtuProbe_core {size : ℕ} : (s.sendPmtuProbe env size).core = s.core := by
  unfold sendPmtuProbe
  split_ifs
  · rfl
  · exact (armPmtuTimer_quiet _).core

theorem noteKeepalive_core : (s.noteKeepalive env).core = s.core := by
  unfold noteKeepalive
  split <;> rfl

theorem beginPathMtu_core : (s.beginPathMtu env).core = s.core := by
  unfold beginPathMtu startPathMtuProbe
  dsimp only
  split_ifs
  · rfl
  · split
    · rfl
    · rw [sendPmtuProbe_core, noteMtuProbe_core]
      rfl
  · rfl

/-- A nomination that does not lose consent at once changes nothing more than its head does. -/
theorem onNominated_core {origin : NominationOrigin} {relay : Bool} (h : ¬ s.losesConsentAtOnce) :
    ∃ n, (s.onNominated env origin ep relay cid tx).core =
      { (s.commitNomination origin ep relay cid tx).core with consentMissed := n } := by
  have hcfg : (s.commitNomination origin ep relay cid tx).cfg = s.cfg := rfl
  have hmiss : (s.commitNomination origin ep relay cid tx).consentMissed = 0 := rfl
  rw [onNominated]
  generalize s.commitNomination origin ep relay cid tx = c at hcfg hmiss ⊢
  have hq : Quiet c ((if relay then c.turnBindChannel env ep else c).flushPendingAppData env) := by
    refine Keeps.trans ?_ (flushPendingAppData_quiet env _)
    split_ifs
    exacts [turnBindChannel_quiet env _ ep, .refl _]
  have hu : (((if relay then c.turnBindChannel env ep else c).flushPendingAppData env).emit
      (.onConnected ep)).core = c.core := by rw [emit_core, hq.core]
  unfold afterNomination
  dsimp only
  rw [beginPathMtu_core]
  generalize ((if relay then c.turnBindChannel env ep else c).flushPendingAppData env).emit
    (.onConnected ep) = u at hu ⊢
  rw [← hu]
  replace hcfg : u.cfg = s.cfg := (congrArg Core.cfg hu).trans hcfg
  replace hmiss : u.consentMissed = 0 := (congrArg Core.consentMissed hu).trans hmiss
  unfold onKeepalive
  split_ifs with hl
  · exact ⟨u.consentMissed, rfl⟩
  · simp only [not_or, Bool.not_eq_true] at hl
    rw [hcfg] at hl
    dsimp only
    rw [if_neg, (armKeepaliveTimer_quiet _).core, (sendKeepalive_quiet env _).core,
      noteKeepalive_core]
    · exact ⟨u.consentMissed + 1, rfl⟩
    · rw [hcfg, hmiss]
      exact fun hf => h ⟨hl.2, hf⟩

theorem onNominated_checkList (origin : NominationOrigin) (ep : Endpoint) (relay : Bool)
    (cid : Cid) (tx : TransportType) (h : ¬ s.losesConsentAtOnce) :
    (s.onNominated env origin ep relay cid tx).checkList = s.checkList := by
  obtain ⟨n, hn⟩ := onNominated_core h
  exact congrArg Core.checkList hn

/-- A nominated path has its pair in the list, so no further check is triggered. -/
theorem maybeTriggerCheckFromPeer_known (env : Env)
    (hp : p ∈ s.checkList) (he : p.endpoint env.net = ep) :
    s.maybeTriggerCheckFromPeer env ep = s := by
  unfold maybeTriggerCheckFromPeer
  split
  · rfl
  · rw [if_pos]
    exact any_eq_true.mpr ⟨p, hp, by simpa using he⟩

theorem onUseCandidate_slotFresh (hc : s.controlling = false)
    (hr : ∃ txn, .requestReceived txn true ep cid (nominationTransport fromTcp)
      (s.arrivedByRelay fromTcp cid) ∈ s.sinceRestart) :
    (s.onUseCandidate env ep cid fromTcp).slotFresh = true ∨
      ∃ i p, s.nominationPair env ep (nominationTransport fromTcp) = some i ∧
        s.checkList[i]? = some p ∧ p.state = .succeeded ∧ p.endpoint env.net = ep ∧
        s.onUseCandidate env ep cid fromTcp = s.onNominated env .useCandidate ep
          (s.arrivedByRelay fromTcp cid) cid (nominationTransport fromTcp) := by
  have hrun (t : Session) (ht : t.controlling = false) (hf : t.slotFresh = true) :
      (t.runNextCheck env).slotFresh = true := by
    exact steps_slotFresh (A := { l | l ≠ .restart })
      (runNextCheck_steps (fun u _ => by simp) fun _ _ => by simp) (by simp) hf
  unfold onUseCandidate
  dsimp only
  split
  · exact .inl (hrun _ hc (slotFresh_iff.mpr hr))
  · rename_i i hi
    split_ifs with hs
    · cases hp : s.checkList[i]? with
      | none => simp [hp] at hs
      | some p =>
        exact .inr ⟨i, p, hi, hp, by simpa [hp] using hs, (nominationPair_spec hi hp).1, rfl⟩
    · exact .inl (hrun _ hc (slotFresh_iff.mpr hr))

theorem answerRequest_core (m : StunMessage) (cid : Cid) (fromTcp : Bool) (s : Session) :
    (s.answerRequest m cid fromTcp).core = s.core := reply_core _ _ _ _ _

theorem answerRequest_steps (m : StunMessage) (cid : Cid) (fromTcp : Bool)
    (hA : .respond m.txnId m.useCandidate ∈ A) :
    Steps env A s (s.answerRequest m cid fromTcp) :=
  (Path.silent (.received s m.txnId m.useCandidate _ cid _ _)).trans
    (.visible (.respond _ fromTcp cid _ m.txnId m.useCandidate
      ⟨_, _, _, _, mem_sinceRestart_self (by simp)⟩) hA)

theorem answerRequest_received (cid : Cid) (fromTcp : Bool) (hm : m.useCandidate = true) :
    ∃ txn, .requestReceived txn true (s.endpointOf fromTcp cid) cid (nominationTransport fromTcp)
      ((s.answerRequest m cid fromTcp).arrivedByRelay fromTcp cid) ∈
        (s.answerRequest m cid fromTcp).sinceRestart := by
  refine ⟨m.txnId, (reply_extends).mem_sinceRestart ?_⟩
  rw [show (s.answerRequest m cid fromTcp).arrivedByRelay fromTcp cid =
    s.arrivedByRelay fromTcp cid from arrivedByRelay_reply _ _ _ _ _ _ _, ← hm]
  exact mem_sinceRestart_self (by simp)

private theorem nomineeSucceeded_of_answered (hm : m.useCandidate = true)
    (hep : (s.endpointOf fromTcp cid).ip ≠ [])
    (hi : (s.answerRequest m cid fromTcp).nominationPair env (s.endpointOf fromTcp cid)
      (nominationTransport fromTcp) = some i)
    (hp : (s.answerRequest m cid fromTcp).checkList[i]? = some p) (hs : p.state = .succeeded) :
    s.nomineeSucceeded env m cid fromTcp p := by
  have hcl : (s.answerRequest m cid fromTcp).checkList = s.checkList :=
    congrArg Core.checkList (answerRequest_core m cid fromTcp s)
  rw [nominationPair, hcl] at hi
  rw [hcl] at hp
  exact ⟨hm, hep, hs, i, hi, hp⟩

theorem acceptRequest_steps (m : StunMessage) (cid : Cid) (fromTcp : Bool)
    (hR : .respond m.txnId m.useCandidate ∈ A)
    (hT : ∀ stale strays full : Bool, (stale = true → s.readsStaleSlot m ∨ (s.losesConsentAtOnce ∧
      ∃ p, s.controlling = false ∧ s.nomineeSucceeded env m cid fromTcp p)) →
      (strays = true → (s.requestHandled env m cid fromTcp).triggerStrays env
        (s.endpointOf fromTcp cid) = true) →
      (full = true → (s.requestHandled env m cid fromTcp).opensFull env
        (s.endpointOf fromTcp cid) = true) → .trigger stale strays full ∈ A)
    (hA : ∀ p, s.controlling = false → s.nomineeSucceeded env m cid fromTcp p →
      .nominateNow p (s.arrivedByRelay fromTcp cid) (s.state = .failed) ∈ A ∧
        NominationLicence A s)
    (hx : ∀ u, s.givesUpOnRequest env m cid fromTcp u → .exhaust u ∈ A)
    (hlite : m.useCandidate = true → s.cfg.liteMode = true → s.state = .checking → .liteCheck ∈ A) :
    Steps env A s (s.acceptRequest env m cid fromTcp) := by
  unfold requestHandled at hT
  unfold acceptRequest
  extract_lets ep s₂ s₃
  dsimp only at hT
  have hcore : s₂.core = s.core := answerRequest_core m cid fromTcp s
  have hcfg : s₂.cfg = s.cfg := congrArg Core.cfg hcore
  have hst : s₂.state = s.state := congrArg Core.state hcore
  have hctl : s₂.controlling = s.controlling := congrArg Core.controlling hcore
  refine (answerRequest_steps m cid fromTcp hR).trans ?_
  dsimp only [s₃]
  split_ifs with huc
  · have hc : s.controlling = false := hctl.symm.trans (by simpa using huc.2.1)
    have hrelay : s₂.arrivedByRelay fromTcp cid = s.arrivedByRelay fromTcp cid :=
      arrivedByRelay_reply _ _ _ _ _ _ _
    have hrec := answerRequest_received (s := s) cid fromTcp huc.1
    refine (onUseCandidate_steps ep cid fromTcp (hctl.trans hc) hrec (fun i p hi hp hs => ?_)
      (fun u hu => hx u ⟨huc.1, hc, huc.2.2, hu⟩) fun h₁ h₂ => hlite huc.1 (hcfg ▸ h₁)
        (hst ▸ h₂)).trans ?_
    · obtain ⟨h₁, hl⟩ := hA p hc (nomineeSucceeded_of_answered huc.1 huc.2.2 hi hp hs)
      rw [show (s.answerRequest m cid fromTcp).arrivedByRelay fromTcp cid = _ from hrelay, hst]
      exact ⟨h₁, hl.congr hcfg (congrArg Core.remoteEndOfCandidates hcore)⟩
    · rcases onUseCandidate_slotFresh (hctl.trans hc) hrec with hf | hn
      · refine maybeTriggerCheckFromPeer_steps ep fun stale strays full h hst hfull =>
          hT stale strays full (fun hs => ?_) (by rwa [if_pos huc]) (by rwa [if_pos huc])
        have := (h hs).2.2.2
        rw [hf] at this
        cases this
      · obtain ⟨i, p, hi, hp, hs, he, hu⟩ := hn
        by_cases hlose : s.losesConsentAtOnce
        · exact maybeTriggerCheckFromPeer_steps ep fun stale strays full _ hst hfull =>
            hT stale strays full
              (fun _ => .inr ⟨hlose, p, hc, nomineeSucceeded_of_answered huc.1 huc.2.2 hi hp hs⟩)
              (by rwa [if_pos huc]) (by rwa [if_pos huc])
        · have hmem : p ∈ (s₂.onUseCandidate env ep cid fromTcp).checkList := by
            rw [hu, onNominated_checkList]
            · exact mem_of_getElem? hp
            · rwa [losesConsentAtOnce, hcfg]
          rw [maybeTriggerCheckFromPeer_known env hmem he]
          exact .refl _
  · refine maybeTriggerCheckFromPeer_steps ep fun stale strays full h hst hfull =>
      hT stale strays full (fun hs => .inl ?_) (by rwa [if_neg huc]) (by rwa [if_neg huc])
    obtain ⟨hep, hc, hslot, hf⟩ := h hs
    refine ⟨?_, ?_, ?_⟩
    · by_contra hu
      exact huc ⟨by simpa using hu, by simpa using hc, hep⟩
    · rwa [show s₂.pendingNomEp = s.pendingNomEp from congrArg Core.pendingNomEp hcore] at hslot
    · by_contra hfresh
      have hpath : Steps env { l | l ≠ .restart } s s₂ := answerRequest_steps m cid fromTcp nofun
      have hmono := steps_slotFresh hpath (by simp) (by simpa using hfresh)
      rw [hf] at hmono
      cases hmono

/-- What a request on a succeeded pair does: it is answered, the path is nominated, and a
check is triggered if the pair is gone by then. -/
theorem acceptRequest_nominated (hc : s.controlling = false)
    (hp : s.nomineeSucceeded env m cid fromTcp p) :
    s.acceptRequest env m cid fromTcp =
      ((s.answerRequest m cid fromTcp).onNominated env .useCandidate (s.endpointOf fromTcp cid)
        (s.arrivedByRelay fromTcp cid) cid (nominationTransport fromTcp)).maybeTriggerCheckFromPeer
          env (s.endpointOf fromTcp cid) := by
  obtain ⟨huc, hep, hps, i, hi, hpi⟩ := hp
  unfold acceptRequest
  extract_lets ep s₂ s₃
  have hcore : s₂.core = s.core := answerRequest_core m cid fromTcp s
  have hcl : s₂.checkList = s.checkList := congrArg Core.checkList hcore
  have hc₂ : s₂.controlling = false := (congrArg Core.controlling hcore).trans hc
  have hrelay : s₂.arrivedByRelay fromTcp cid = s.arrivedByRelay fromTcp cid :=
    arrivedByRelay_reply _ _ _ _ _ _ _
  dsimp only [s₃]
  rw [if_pos ⟨huc, by simp [hc₂], hep⟩]
  unfold onUseCandidate
  dsimp only
  rw [nominationPair, hcl, show s.checkList.findIdx? _ = some i from hi]
  dsimp only
  rw [hpi, if_pos (by simp [hps]), hrelay]

theorem recheck_not_succeeded (env : Env) (s : Session) :
    ∀ p ∈ (s.recheck env).checkList, p.state ≠ .succeeded := by
  intro p hp hs
  obtain ⟨q, hq, he⟩ := exists_left_of_mem (runNextCheck_evolves env _) hp
  rcases he.state with h | h
  · have := (buildCheckList_fresh env s hq).2
    rw [← h, hs] at this
    simp at this
  · exact h.2 hs

theorem handleRoleConflict_eq (env : Env) (s : Session) (m : StunMessage)
    (h : s.sameRole m = true) :
    (s.givesWay m ∧ s.handleRoleConflict env m.iceControlling.isSome (senderTiebreaker m) =
        (true, s.flipRole env)) ∨
      (¬ s.givesWay m ∧ s.handleRoleConflict env m.iceControlling.isSome (senderTiebreaker m) =
        (false, s)) := by
  unfold handleRoleConflict givesWay
  split_ifs with h₁ h₂
  · exact .inr ⟨fun hg => h₁ hg.2.1, rfl⟩
  · exact .inr ⟨fun hg => absurd hg.2.2 (not_lt.mpr h₂), rfl⟩
  · exact .inl ⟨⟨h, not_not.mp h₁, not_le.mp h₂⟩, rfl⟩

theorem flipRole_eq (env : Env) (s : Session) :
    (s.flipRebuilds ∧ s.flipRole env =
        ({ s with controlling := !s.controlling } : Session).recheck env) ∨
      (¬ s.flipRebuilds ∧ s.flipRole env = { s with controlling := !s.controlling }) := by
  unfold flipRole flipRebuilds
  dsimp only
  split_ifs with h
  exacts [.inl ⟨h, rfl⟩, .inr ⟨h, rfl⟩]

theorem flipRole_pendingNomEp : (s.flipRole env).pendingNomEp = s.pendingNomEp := by
  rcases flipRole_eq env s with ⟨-, h⟩ | ⟨-, h⟩
  · rw [h, recheck, show (runNextCheck env _).pendingNomEp = _ from
      congrArg Core.pendingNomEp (runNextCheck_core env _)]
    exact congrArg Core.pendingNomEp (buildCheckList_core env _)
  · rw [h]

private theorem recheck_cfg : (s.recheck env).cfg = s.cfg :=
  (congrArg Core.cfg (runNextCheck_core env _)).trans
    (congrArg Core.cfg (buildCheckList_core env s))

theorem flipRole_cfg : (s.flipRole env).cfg = s.cfg := by
  rcases flipRole_eq env s with ⟨-, h⟩ | ⟨-, h⟩
  · rw [h]
    exact recheck_cfg
  · rw [h]

theorem flipRole_checking (h : (s.flipRole env).state = .checking) : s.state = .checking := by
  rcases flipRole_eq env s with ⟨hr, -⟩ | ⟨-, he⟩
  · exact hr.1
  · rwa [he] at h

private theorem flipRole_readsStaleSlot (h : (s.flipRole env).readsStaleSlot m) :
    s.readsStaleSlot m := by
  have hsteps : Steps env { l | l ≠ .restart } s (s.flipRole env) := by
    refine flipRole_steps (by simp) fun _ _ _ l hl => ?_
    rintro rfl
    exact hl.elim
  have hslot : (s.flipRole env).pendingNomEp = s.pendingNomEp := flipRole_pendingNomEp
  refine ⟨h.1, hslot ▸ h.2.1, ?_⟩
  by_contra hf
  have := steps_slotFresh hsteps (by simp) (by simpa using hf)
  rw [h.2.2] at this
  cases this

theorem handleBindingRequest_steps (hm : m.msgType = bindingRequest) :
    Steps env (s.stunAllowed env m cid fromTcp) s (s.handleBindingRequest env m cid fromTcp) := by
  unfold handleBindingRequest
  split_ifs with hr
  · rcases handleRoleConflict_eq env s m hr with ⟨hg, he⟩ | ⟨hg, he⟩
    · have hf : s.flipsOn m := .inr ⟨hm, hg⟩
      -- after a rebuild no pair has succeeded, so a nomination happens on the old list
      have hnow (p : CheckPair) (hc : (s.flipRole env).controlling = false)
          (hp : (s.flipRole env).nomineeSucceeded env m cid fromTcp p) :
          s.flipRole env = { s with controlling := !s.controlling } ∧
            s.nominatesNow env m cid fromTcp p (s.arrivedByRelay fromTcp cid) := by
        rcases flipRole_eq env s with ⟨-, hflip⟩ | ⟨hnr, hflip⟩
        · obtain ⟨-, -, hs, i, -, hpi⟩ := hp
          rw [hflip] at hpi
          exact absurd hs (recheck_not_succeeded env _ p (mem_of_getElem? hpi))
        · rw [hflip] at hc hp
          exact ⟨hflip, hm, hp, rfl, .inr ⟨hg, by simpa using hc, hnr⟩⟩
      rw [he]
      refine (flipRole_stunAllowed hf).trans
        (acceptRequest_steps m cid fromTcp ⟨hm, rfl, rfl⟩
          (fun stale strays full h hst hfull => ⟨hm, fun hs => ?_, fun hs => ?_, fun hs => ?_⟩)
          (fun p hc hp => ?_) (fun u hu => .inr (.inr ⟨hm, .inr ⟨hg, hu⟩⟩)) fun _ h₁ h₂ => ?_)
      · rcases h hs with hst | ⟨hl, p, hc, hp⟩
        · exact .inl (flipRole_readsStaleSlot hst)
        · obtain ⟨hflip, hn⟩ := hnow p hc hp
          rw [hflip] at hl
          exact .inr ⟨hl, p, _, hn⟩
      · rw [triggersStray, if_pos hr]
        exact hst hs
      · rw [triggersFull, if_pos hr]
        exact ⟨fun _ => hg, hfull hs⟩
      · obtain ⟨hflip, hn⟩ := hnow p hc hp
        rw [hflip]
        exact ⟨⟨hn, rfl⟩, (stunAllowed_licence (.inr (.inr ⟨p, _, hn⟩))).congr rfl rfl⟩
      · exact ⟨(congrArg IceConfig.liteMode flipRole_cfg).symm.trans h₁,
          flipRole_checking h₂, .inl hf⟩
    · rw [he]
      exact .visible (.reject s fromTcp cid _ m.txnId) ⟨hm, hr, hg⟩
  · have hnow (p : CheckPair) (hc : s.controlling = false)
        (hp : s.nomineeSucceeded env m cid fromTcp p) :
        s.nominatesNow env m cid fromTcp p (s.arrivedByRelay fromTcp cid) :=
      ⟨hm, hp, rfl, .inl ⟨by simpa using hr, hc⟩⟩
    refine acceptRequest_steps m cid fromTcp ⟨hm, rfl, rfl⟩
      (fun stale strays full h hst hfull => ⟨hm, fun hs => ?_, fun hs => ?_, fun hs => ?_⟩)
      (fun p hc hp => ?_) (fun u hu => .inr (.inr ⟨hm, .inl ⟨by simpa using hr, hu⟩⟩))
      fun huc h₁ h₂ => ⟨h₁, h₂, .inr ⟨hm, huc⟩⟩
    · exact (h hs).imp_right fun ⟨hl, p, hc, hp⟩ => ⟨hl, p, _, hnow p hc hp⟩
    · rw [triggersStray, if_neg hr]
      exact hst hs
    · rw [triggersFull, if_neg hr]
      exact ⟨fun h => absurd h hr, hfull hs⟩
    · exact ⟨⟨hnow p hc hp, rfl⟩, stunAllowed_licence (.inr (.inr ⟨p, _, hnow p hc hp⟩))⟩

theorem onStun_steps :
    Steps env (s.stunAllowed env m cid fromTcp) s (s.onStun env m cid fromTcp) := by
  unfold onStun
  split_ifs with h₁ h₂ h₃
  exacts [handleErrorResponse_steps h₁, handleSuccessResponse_steps h₂,
    handleBindingRequest_steps h₃, .refl s]

end Session

end LinkIce
