import LinkIce.Session.Script

/-! Whether the nominee of a regular controller survives in its check list until its
follow-up check is answered. -/
namespace LinkIce
open Stun List Option

def Payload.useCandidateTxn : Payload → Option TransactionId
  | stun b => if .tlv .useCandidate [] ∈ b.attrs then some b.txnId else none
  | raw _ => none

namespace Effect

def useCandidateTxn : Effect → Option TransactionId
  | udpSend _ p | tcpSend _ p | relaySend _ p => p.useCandidateTxn
  | _ => none

def lastUseCandidate (log : List Effect) : Option TransactionId := log.findSome? useCandidateTxn

theorem useCandidateTxn_of_routine {e : Effect} (h : e.isRoutine = true) :
    e.useCandidateTxn = none := by
  cases e with
  | udpSend cid p | tcpSend cid p | relaySend ep p =>
    cases p with
    | stun b =>
      have : b.attrs = [] := by simpa [isRoutine, isQuiet, isData, Payload.isQuiet] using h
      simp [useCandidateTxn, Payload.useCandidateTxn, this]
    | raw => rfl
  | _ => rfl

end Effect

namespace Session

open Effect

variable {H : Hmac} {env : Env} {A : Set Label} {s t : Session} {cid : Cid} {e : Effect}
  {ep : Endpoint} {l : Option Label} {p : Payload} {txn : TransactionId} {i : ℕ}

theorem useCandidateTxn_of_sends (h : sends p e) : e.useCandidateTxn = p.useCandidateTxn := by
  cases e with
  | udpSend cid q | tcpSend cid q | relaySend ep q => rw [← show q = p from h]; rfl
  | _ => exact h.elim

/-- Which checks carry USE-CANDIDATE. -/
theorem checkMessage_useCandidateTxn (s : Session) (p : CheckPair) :
    (Payload.stun (s.checkMessage p)).useCandidateTxn =
      if s.controlling && (s.cfg.aggressiveNomination || p.nomineeCheckSent) then some p.txnId
      else none := by
  unfold Payload.useCandidateTxn checkMessage
  cases s.controlling <;> cases s.cfg.aggressiveNomination || p.nomineeCheckSent <;>
    simp [StunBuilder.addUsername, StunBuilder.addPriority, StunBuilder.addIceControlling,
      StunBuilder.addIceControlled, StunBuilder.addUseCandidate, StunBuilder.addIntegrity,
      StunBuilder.addFingerprint, StunBuilder.add]

theorem responseMessage_useCandidateTxn :
    (Payload.stun (s.responseMessage txn)).useCandidateTxn = none := by
  simp [Payload.useCandidateTxn, responseMessage, StunBuilder.addIntegrity,
    StunBuilder.addFingerprint, StunBuilder.add]

theorem roleConflictMessage_useCandidateTxn :
    (Payload.stun (s.roleConflictMessage txn)).useCandidateTxn = none := by
  simp [Payload.useCandidateTxn, roleConflictMessage, StunBuilder.addErrorCode,
    StunBuilder.addIntegrity, StunBuilder.addFingerprint, StunBuilder.add]

theorem pmtuMessage_useCandidateTxn {size : ℕ} :
    (Payload.stun (s.pmtuMessage txn size)).useCandidateTxn = none := by
  have hpad (b : StunBuilder) : .tlv .useCandidate [] ∈ (b.addPaddingTo size).attrs ↔
      .tlv .useCandidate [] ∈ b.attrs := by
    unfold StunBuilder.addPaddingTo
    dsimp only
    split_ifs
    · rfl
    · simp [StunBuilder.add]
  unfold Payload.useCandidateTxn pmtuMessage
  cases s.controlling <;>
    simp [StunBuilder.addIntegrity, StunBuilder.addFingerprint, StunBuilder.add, hpad,
      StunBuilder.addUsername, StunBuilder.addPriority, StunBuilder.addIceControlling,
      StunBuilder.addIceControlled]

/-- What the nominee is in every state of a run that does not lose it. -/
structure NomineeTracked (s : Session) : Prop where
  none : s.nomineeSelected = false → ∀ p ∈ s.checkList, p.nomineeCheckSent = false
  some : s.nomineeSelected = true →
    ∃ p ∈ s.checkList, p.nomineeCheckSent = true ∧ lastUseCandidate s.log = some p.txnId
  unique : ∀ p ∈ s.checkList, ∀ q ∈ s.checkList, p.nomineeCheckSent = true →
    q.nomineeCheckSent = true → p.txnId = q.txnId

/-- A USE-CANDIDATE request belongs to a flagged pair of the list. -/
def isFollowUp (ps : List CheckPair) (e : Effect) : Prop :=
  ∀ txn, e.useCandidateTxn = some txn → ∃ p ∈ ps, p.nomineeCheckSent = true ∧ p.txnId = txn

theorem isFollowUp_of_none {ps : List CheckPair} (h : e.useCandidateTxn = none) :
    isFollowUp ps e := fun txn ht => by simp [h] at ht

def SameNominee (p q : CheckPair) : Prop :=
  q.txnId = p.txnId ∧ q.nomineeCheckSent = p.nomineeCheckSent

theorem SameNominee.refl (p : CheckPair) : SameNominee p p := ⟨rfl, rfl⟩

namespace NomineeTracked

private theorem lastUseCandidate_eq (h : NomineeTracked s) (hn : s.nomineeSelected = true)
    {p : CheckPair} (hp : p ∈ s.checkList) (hf : p.nomineeCheckSent = true)
    (hl : Logs (isFollowUp s.checkList) s t) : lastUseCandidate t.log = .some p.txnId := by
  obtain ⟨new, hlog, hnew⟩ := hl
  obtain ⟨q, hq, hqf, hlast⟩ := h.some hn
  rw [lastUseCandidate, hlog, List.findSome?_append]
  cases hfind : new.findSome? useCandidateTxn with
  | none => exact hlast.trans (congrArg _ (h.unique q hq p hp hqf hf))
  | some txn =>
    obtain ⟨e, he, htxn⟩ := exists_of_findSome?_eq_some hfind
    obtain ⟨r, hr, hrf, rfl⟩ := hnew e he txn htxn
    exact congrArg _ (h.unique r hr p hp hrf hf)

theorem frame (h : NomineeTracked s) (hl : Logs (isFollowUp s.checkList) s t)
    (hn : t.nomineeSelected = s.nomineeSelected)
    (hp : List.Forall₂ SameNominee s.checkList t.checkList) : NomineeTracked t := by
  refine ⟨fun hf q hq => ?_, fun hf => ?_, fun q hq r hr hqf hrf => ?_⟩
  · obtain ⟨p, hpl, -, heq⟩ := exists_left_of_mem hp hq
    rw [heq]
    exact h.none (hn ▸ hf) p hpl
  · have hs := hn ▸ hf
    obtain ⟨p, hpl, hpf, -⟩ := h.some hs
    obtain ⟨q, hq, htxn, heq⟩ := exists_right_of_mem hp hpl
    refine ⟨q, hq, heq.trans hpf, ?_⟩
    rw [htxn]
    exact h.lastUseCandidate_eq hs hpl hpf hl
  · obtain ⟨p, hpl, htp, hfp⟩ := exists_left_of_mem hp hq
    obtain ⟨p', hpl', htp', hfp'⟩ := exists_left_of_mem hp hr
    rw [htp, htp']
    exact h.unique p hpl p' hpl' (hfp ▸ hqf) (hfp' ▸ hrf)

theorem same (h : NomineeTracked s) (hl : Logs (fun e => e.useCandidateTxn = .none) s t)
    (hn : t.nomineeSelected = s.nomineeSelected) (hp : t.checkList = s.checkList) :
    NomineeTracked t :=
  h.frame (hl.mono fun _ => isFollowUp_of_none) hn (hp ▸ forall₂_refl .refl _)

theorem fresh (hn : t.nomineeSelected = false)
    (hp : ∀ p ∈ t.checkList, p.nomineeCheckSent = false) : NomineeTracked t :=
  ⟨fun _ => hp, fun h => by simp [hn] at h, fun p hpl _ _ hf => by simp [hp p hpl] at hf⟩

end NomineeTracked

theorem carrierSend_tcp_logs (h : s.hasCarrierTcp = true) :
    (s.carrierSend true cid p).log = .tcpSend cid p :: s.log := by
  simp [carrierSend, h, emit]

theorem carrierSend_udp_logs (h : s.hasCarrier = true) :
    (s.carrierSend false cid p).log = .udpSend cid p :: s.log := by
  simp [carrierSend, h, emit]

theorem hasCarrier_of_cid (h : (s.ensureRemoteCid env ep).1 ≠ 0) : s.hasCarrier = true := by
  cases hc : s.hasCarrier with
  | true => rfl
  | false => simp [ensureRemoteCid, hc] at h

theorem hasCarrierTcp_of_cid (h : (s.ensureRemoteTcpCid env ep).1 ≠ 0) :
    s.hasCarrierTcp = true := by
  cases hc : s.hasCarrierTcp with
  | true => rfl
  | false => simp [ensureRemoteTcpCid, hc] at h

def pathOpen (env : Env) (p : CheckPair) (s : Session) : Bool :=
  if transportIsTcp p.transportType then
    p.transportType ≠ .tcpPassive && (s.ensureRemoteTcpCid env (p.endpoint env.net)).1 ≠ 0
  else (p.loc.type = .relay && s.turnAllocated) ||
    (s.ensureRemoteCid env (p.endpoint env.net)).1 ≠ 0

theorem transmit_sends {p : CheckPair} {b : StunBuilder} (h : s.pathOpen env p = true) :
    ∃ e, sends (.stun b) e ∧ (s.transmit env p b).log = e :: s.log := by
  have htcp := ensureRemoteTcpCid_quiet env s (p.endpoint env.net)
  have hudp := ensureRemoteCid_quiet env s (p.endpoint env.net)
  have hlog := ensureRemoteTcpCid_log env (p.endpoint env.net) s
  have hlog' := ensureRemoteCid_log env (p.endpoint env.net) s
  unfold pathOpen at h
  unfold transmit
  dsimp only
  split_ifs at h ⊢ with ht hp hc hr hc
  · simp [hp] at h
  · simp [hc] at h
  · have := hasCarrierTcp_of_cid hc
    refine ⟨.tcpSend (s.ensureRemoteTcpCid env (p.endpoint env.net)).1 (.stun b), rfl, ?_⟩
    rw [carrierSend_tcp_logs ((congrArg Core.hasCarrierTcp htcp.core).trans this), hlog]
  · exact ⟨.relaySend (p.endpoint env.net) (.stun b), rfl,
      congrArg _ (relayCidForEndpoint_log _ s)⟩
  · simp [hc] at h
    exact absurd ⟨h.1, h.2⟩ hr
  · have := hasCarrier_of_cid hc
    refine ⟨.udpSend (s.ensureRemoteCid env (p.endpoint env.net)).1 (.stun b), rfl, ?_⟩
    rw [carrierSend_udp_logs ((congrArg Core.hasCarrier hudp.core).trans this), hlog']

/-- Whether the path is open depends on the connections only. -/
theorem pathOpen_congr {p : CheckPair} (ha : t.turnAllocated = s.turnAllocated)
    (hc : t.hasCarrier = s.hasCarrier) (hct : t.hasCarrierTcp = s.hasCarrierTcp)
    (he : t.endpointToCid = s.endpointToCid) (hd : t.draws = s.draws) :
    t.pathOpen env p = s.pathOpen env p := by
  have hudp : (t.ensureRemoteCid env (p.endpoint env.net)).1 =
      (s.ensureRemoteCid env (p.endpoint env.net)).1 := by
    unfold ensureRemoteCid
    rw [hc, he, hd]
    cases s.endpointToCid.lookup (p.endpoint env.net) with
    | some cid => split_ifs <;> rfl
    | none =>
      dsimp only
      split_ifs <;> rfl
  have htcp : (t.ensureRemoteTcpCid env (p.endpoint env.net)).1 =
      (s.ensureRemoteTcpCid env (p.endpoint env.net)).1 := by
    unfold ensureRemoteTcpCid
    rw [hct, hd]
    dsimp only
    split_ifs <;> rfl
  unfold pathOpen
  rw [hudp, htcp, ha]

theorem sendCheck_sends {p : CheckPair} (hp : s.checkList[i]? = some p)
    (h : s.checkLeaves env p = true) :
    ∃ e, sends (.stun (s.checkMessage p)) e ∧ (s.sendCheck env i).log = e :: s.log := by
  simp only [checkLeaves, Bool.and_eq_true, decide_eq_true_eq] at h
  rw [sendCheck, hp]
  simp only [if_neg (Nat.not_le.mpr h.1)]
  have hopen : s.drawn.pathOpen env p = true := h.2
  exact transmit_sends (Eq.trans (pathOpen_congr (s := s.drawn) rfl rfl rfl rfl rfl) hopen)

theorem checkLeaves_flagged {p : CheckPair} :
    (({ s with nomineeSelected := true } : Session).modifyPair i fun p =>
        { p with nomineeCheckSent := true }).checkLeaves env { p with nomineeCheckSent := true } =
      s.checkLeaves env p := by
  have hopen : (({ s with nomineeSelected := true } : Session).modifyPair i fun p =>
      { p with nomineeCheckSent := true }).drawn.pathOpen env p = s.drawn.pathOpen env p :=
    pathOpen_congr rfl rfl rfl rfl rfl
  exact congrArg (decide (p.retries < s.retryLimit) && ·) hopen

theorem pickNominee_sends (h : s.pickLeaves env = true) :
    ∃ i p e, CheckPair.bestValid s.checkList = some i ∧ s.checkList[i]? = some p ∧
      sends (.stun (s.checkMessage { p with nomineeCheckSent := true })) e ∧
      (s.pickNominee env).log = e :: s.log := by
  unfold pickLeaves at h
  unfold pickNominee
  cases hi : CheckPair.bestValid s.checkList with
  | none => simp [hi] at h
  | some i =>
    cases hp : s.checkList[i]? with
    | none => simp [hi, hp] at h
    | some p =>
      simp only [hi, hp, any_some] at h
      have hq : ((({ s with nomineeSelected := true } : Session).modifyPair i fun p =>
          { p with nomineeCheckSent := true }).checkList)[i]? =
          some { p with nomineeCheckSent := true } := by
        simp [modifyPair, hp]
      obtain ⟨e, he, hlog⟩ := sendCheck_sends hq ((checkLeaves_flagged).trans h)
      exact ⟨i, p, e, rfl, hp, he, hlog⟩

theorem succeedPair_sameNominee {p : CheckPair} :
    List.Forall₂ SameNominee s.checkList (s.succeedPair i p).checkList := by
  have hrepaint := CheckPair.unfreezeSiblings_repaints p.loc.foundation p.rem.foundation
    (s.checkList.modify i fun p => { p with valid := true, state := .succeeded })
  refine forall₂_trans (fun _ _ _ h h' => ⟨h'.1.trans h.1, h'.2.trans h.2⟩)
    (forall₂_modify .refl (fun _ => ⟨rfl, rfl⟩) _ i) (hrepaint.imp fun q r hr => ?_)
  have := CheckPair.Evolves.of_repaints hr
  exact ⟨this.txnId, this.nomineeCheckSent⟩

/-- The follow-up of the pair that was picked is the last USE-CANDIDATE request. -/
theorem pickNominee_tracked (h : NomineeTracked s) (hn : s.nomineeSelected = false)
    (hc : s.controlling = true) (hl : s.pickLeaves env = true) :
    NomineeTracked (s.pickNominee env) := by
  obtain ⟨i, p, e, hi, hp, he, hlog⟩ := pickNominee_sends hl
  have hunflagged := h.none hn
  have hlast : lastUseCandidate (s.pickNominee env).log = some p.txnId := by
    rw [hlog, lastUseCandidate, List.findSome?_cons, useCandidateTxn_of_sends he,
      checkMessage_useCandidateTxn]
    simp [hc]
  have hsched := sendCheck_scheduled env
    (({ s with nomineeSelected := true } : Session).modifyPair i
      fun p => { p with nomineeCheckSent := true }) i
  have hpick : s.pickNominee env = (({ s with nomineeSelected := true } : Session).modifyPair i
      fun p => { p with nomineeCheckSent := true }).sendCheck env i := by
    rw [pickNominee, hi]
  rw [← hpick] at hsched
  -- every flagged pair of the new list comes from the one that was picked
  have hflagged {q : CheckPair} (hq : q ∈ (s.pickNominee env).checkList)
      (hf : q.nomineeCheckSent = true) : q.txnId = p.txnId := by
    obtain ⟨r, hr, hrq⟩ := exists_left_of_mem hsched.checkList hq
    rw [hrq.txnId]
    rw [hrq.nomineeCheckSent] at hf
    rcases mem_modify hr with hr | ⟨p', hp', rfl⟩
    · exact absurd hf (by simp [hunflagged r hr])
    · have hp' : s.checkList[i]? = some p' := hp'
      rw [hp] at hp'
      rw [some.inj hp']
  have hmem : { p with nomineeCheckSent := true } ∈
      (({ s with nomineeSelected := true } : Session).modifyPair i
        fun p => { p with nomineeCheckSent := true }).checkList := by
    refine mem_of_getElem? (i := i) ?_
    simp [modifyPair, hp]
  obtain ⟨q, hq, hpq⟩ := exists_right_of_mem hsched.checkList hmem
  have hsel : (s.pickNominee env).nomineeSelected = true :=
    congrArg Core.nomineeSelected hsched.core
  refine ⟨fun hf => ?_, fun _ => ?_, fun q hq r hr hqf hrf => ?_⟩
  · rw [hsel] at hf
    cases hf
  · exact ⟨q, hq, hpq.nomineeCheckSent, hlast.trans (congrArg some hpq.txnId.symm)⟩
  · rw [hflagged hq hqf, hflagged hr hrf]

theorem act_nomineeSelected (h : Act env s l t)
    (hl : ∀ leaves, l ≠ some (.pick leaves)) (ht : t.nomineeSelected = true) :
    s.nomineeSelected = true := by
  have hreset (u : Session) : (u.reset env).nomineeSelected = false := by
    obtain ⟨n, -, hc⟩ := reset_core env u
    exact congrArg Core.nomineeSelected hc
  cases h with
  | quiet h | work h | release h | deliver h | turnInput h =>
    exact (congrArg Core.nomineeSelected h.core).symm.trans ht
  | rebuild => exact (congrArg Core.nomineeSelected (buildCheckList_core env s)).symm.trans ht
  | check i | liteCheck i =>
    exact (congrArg Core.nomineeSelected (sendCheck_scheduled env s i).core).symm.trans ht
  | pick => exact absurd rfl (hl _)
  | respond | reject =>
    exact (congrArg Core.nomineeSelected (reply_core _ _ _ _ s)).symm.trans ht
  | restart => simp [hreset] at ht
  | autoRestart => simp [hreset] at ht
  | _ => exact ht

/-- What a labelled action must not do for the nominee to stay. -/
def keepsNominee (s : Session) : Label → Prop
  | .rebuild | .forget => s.nomineeSelected = false
  | .pick leaves => leaves = true
  | _ => True

theorem act_nomineeTracked (h : Act env s l t)
    (ha : s.cfg.aggressiveNomination = false) (hk : ∀ a ∈ l, s.keepsNominee a)
    (hs : NomineeTracked s) : NomineeTracked t := by
  have hreset (u : Session) : NomineeTracked (u.reset env) := by
    obtain ⟨n, -, hc⟩ := reset_core env u
    refine .fresh (congrArg Core.nomineeSelected hc) ?_
    rw [show (u.reset env).checkList = [] from congrArg Core.checkList hc]
    simp
  cases h with
  | quiet h | work h | release h =>
    exact hs.same ((Logs.of_quiet h.toKeepsCore).mono fun _ => useCandidateTxn_of_routine)
      (congrArg Core.nomineeSelected h.core) h.checkList
  | deliver h =>
    exact hs.same ((Logs.of_keepsCore h.toKeepsCore).mono fun _ => useCandidateTxn_of_routine)
      (congrArg Core.nomineeSelected h.core) h.checkList
  | turnInput h =>
    exact hs.same ((Logs.of_keepsCore h).mono fun _ => useCandidateTxn_of_routine)
      (congrArg Core.nomineeSelected h.core) h.checkList
  | gather | waitRemote | startChecking | close | received | publish | announce =>
    exact hs.same (.emit _ rfl) rfl rfl
  | probing | refresh | keepalive | lapse => exact hs.same (.emit _ rfl) rfl rfl
  | recover =>
    exact hs.same ⟨[.setState .checking, .consentReset], rfl, by simp [useCandidateTxn]⟩ rfl rfl
  | probe cid size =>
    exact hs.same (.emit _ pmtuMessage_useCandidateTxn) rfl rfl
  | forget =>
    have hn : s.nomineeSelected = false := hk _ rfl
    exact .fresh hn (by simp [forgetRemote])
  | rebuild =>
    have hn : s.nomineeSelected = false := hk _ rfl
    refine .fresh ?_ fun p hp => (buildCheckList_fresh env s hp).1.nomineeCheckSent
    exact (congrArg Core.nomineeSelected (buildCheckList_core env s)).trans hn
  | check i | liteCheck i =>
    have hsched := sendCheck_scheduled env s i
    refine hs.frame ((sendCheck_logs).mono ?_) (congrArg Core.nomineeSelected hsched.core)
      (hsched.checkList.imp fun _ _ h => ⟨h.txnId, h.nomineeCheckSent⟩)
    rintro e ⟨p, hp, he⟩ txn htxn
    rw [useCandidateTxn_of_sends he, checkMessage_useCandidateTxn] at htxn
    split_ifs at htxn with hc
    have hf : p.nomineeCheckSent = true := by simpa [ha] using (Bool.and_eq_true_iff.mp hc).2
    exact ⟨p, mem_of_getElem? hp, hf, some.inj htxn⟩
  | repaint ps h =>
    refine hs.frame (.of_log_eq rfl) rfl (h.imp fun _ _ h => ?_)
    have := CheckPair.Evolves.of_repaints h
    exact ⟨this.txnId, this.nomineeCheckSent⟩
  | pick hn hc => exact pickNominee_tracked hs hn hc (hk _ rfl)
  | succeed i p =>
    exact hs.frame (.emit _ (isFollowUp_of_none rfl)) rfl (succeedPair_sameNominee)
  | respond fromTcp cid ep txn =>
    refine hs.same ((reply_logs).mono fun e he => ?_)
      (congrArg Core.nomineeSelected (reply_core _ _ _ _ s))
      (congrArg Core.checkList (reply_core _ _ _ _ s))
    rw [useCandidateTxn_of_sends he, responseMessage_useCandidateTxn]
  | reject fromTcp cid ep txn =>
    refine hs.same ((reply_logs).mono fun e he => ?_)
      (congrArg Core.nomineeSelected (reply_core _ _ _ _ s))
      (congrArg Core.checkList (reply_core _ _ _ _ s))
    rw [useCandidateTxn_of_sends he, roleConflictMessage_useCandidateTxn]
  | defer i =>
    exact hs.frame (.of_log_eq rfl) rfl (forall₂_modify .refl (fun _ => ⟨rfl, rfl⟩) _ i)
  | trigger loc rem =>
    have hunflagged : (s.triggeredPair env loc rem).nomineeCheckSent = false := rfl
    refine ⟨fun hn p hp => ?_, fun hn => ?_, fun p hp q hq hpf hqf => ?_⟩
    · rcases mem_append.mp hp with hp | hp
      · exact hs.none hn p hp
      · rw [mem_singleton.mp hp, hunflagged]
    · obtain ⟨p, hp, hf⟩ := hs.some hn
      exact ⟨p, mem_append_left _ hp, hf⟩
    · rcases mem_append.mp hp with hp | hp
      · rcases mem_append.mp hq with hq | hq
        · exact hs.unique p hp q hq hpf hqf
        · rw [mem_singleton.mp hq, hunflagged] at hqf
          cases hqf
      · rw [mem_singleton.mp hp, hunflagged] at hpf
        cases hpf
  | nominateOwn | nominateNow =>
    exact hs.same ⟨[.setState .connected, .nominated ..], rfl, by simp [useCandidateTxn]⟩ rfl rfl
  | nominateDeferred i p =>
    have hclear : NomineeTracked (s.modifyPair i fun p => { p with pendingNomination := false }) :=
      hs.frame (.of_log_eq rfl) rfl (forall₂_modify .refl (fun _ => ⟨rfl, rfl⟩) _ i)
    exact hclear.same
      ⟨[.setState .connected, .nominated ..], rfl, by simp [useCandidateTxn]⟩ rfl rfl
  | exhaust | expire | loseConsent =>
    exact hs.same ⟨[.onFailed, .setState .failed, s.failure _], rfl,
      by simp [useCandidateTxn, failure]⟩ rfl rfl
  | restart => exact hreset s
  | autoRestart => exact hreset _
  | _ => exact hs.same (.of_log_eq rfl) rfl rfl

/-- The event builds a new check list, or empties it, while a nominee is selected; or a nominee
is picked whose follow-up check does not reach a carrier. -/
def losesNominee (H : Hmac) (env : Env) (s : Session) (e : Event) : Prop :=
  .pick false ∈ s.allowed H env e ∨
    ((.rebuild ∈ s.allowed H env e ∨ .forget ∈ s.allowed H env e) ∧
      (s.nomineeSelected = true ∨ ∃ leaves, .pick leaves ∈ s.allowed H env e))

theorem step_nomineeTracked {e : Event} (ha : s.cfg.aggressiveNomination = false)
    (h : ¬ s.losesNominee H env e) (hs : NomineeTracked s) :
    NomineeTracked (s.step H env e) := by
  refine ((step_steps H env s e).invariant (I := fun u => NomineeTracked u ∧
    u.cfg.aggressiveNomination = false ∧ (u.nomineeSelected = true → s.nomineeSelected = true ∨
      ∃ leaves, .pick leaves ∈ s.allowed H env e)) (fun {u v l} hl hact hu => ?_)
    ⟨hs, ha, .inl⟩).1
  obtain ⟨htr, hcfg, hsel⟩ := hu
  refine ⟨act_nomineeTracked hact hcfg (fun a hla => ?_) htr, ?_, fun hv => ?_⟩
  · have hmem := hl a hla
    have hfree (hrf : .rebuild ∈ s.allowed H env e ∨ .forget ∈ s.allowed H env e) :
        u.nomineeSelected = false := by
      by_contra hn
      exact h (.inr ⟨hrf, hsel (by simpa using hn)⟩)
    cases a with
    | rebuild => exact hfree (.inl hmem)
    | forget => exact hfree (.inr hmem)
    | pick leaves =>
      cases leaves with
      | true => rfl
      | false => exact absurd (.inl hmem) h
    | _ => trivial
  · rw [(act_cfg hact).1, hcfg]
  · by_cases hp : ∃ leaves, l = some (.pick leaves)
    · obtain ⟨leaves, rfl⟩ := hp
      exact .inr ⟨leaves, hl _ rfl⟩
    · exact hsel (act_nomineeSelected hact (fun leaves hl => hp ⟨leaves, hl⟩) hv)

/-- While a regular controller that has picked its nominee is checking, the list holds the pair
whose USE-CANDIDATE request was sent last. -/
def nomineeKept (s : Session) : Bool :=
  !(s.controlling && !s.cfg.aggressiveNomination && decide (s.state = .checking) &&
      s.nomineeSelected) ||
    s.checkList.any fun p => p.nomineeCheckSent && lastUseCandidate s.log = some p.txnId

theorem NomineeTracked.nomineeKept (h : NomineeTracked s) : s.nomineeKept = true := by
  unfold Session.nomineeKept
  cases hn : s.nomineeSelected with
  | false => simp
  | true =>
    obtain ⟨p, hp, hf, hlast⟩ := h.some hn
    have : s.checkList.any (fun p => p.nomineeCheckSent &&
        lastUseCandidate s.log = .some p.txnId) = true :=
      any_eq_true.mpr ⟨p, hp, by simp [hf, hlast]⟩
    rw [this, Bool.or_true]

/-- In a run that never loses its nominee it is kept in every state. -/
theorem run_nomineeKept (H : Hmac) (env : Env) (cfg : IceConfig) (w : Wiring)
    (controlling : Bool) (tiebreaker : ℕ) (es : List Event)
    (h : Along (step H env) (fun s e => ¬ s.losesNominee H env e)
      (create env cfg w controlling tiebreaker) es) :
    ((create env cfg w controlling tiebreaker).run H env es).nomineeKept = true := by
  have hcfg : ((create env cfg w controlling tiebreaker).run H env es).cfg = cfg :=
    run_invariant (I := fun u : Session => u.cfg = cfg)
      (fun u e hu => (step_cfg H env u e).trans hu) rfl es
  cases ha : cfg.aggressiveNomination with
  | true => simp [nomineeKept, hcfg, ha]
  | false =>
    have hinit : NomineeTracked (create env cfg w controlling tiebreaker) :=
      .fresh rfl (by simp [create])
    refine (h.invariant (I := fun u : Session => NomineeTracked u ∧ u.cfg = cfg)
      (fun u e hu hI => ?_) ⟨hinit, rfl⟩).1.nomineeKept
    exact ⟨step_nomineeTracked (by rw [hI.2, ha]) hu hI.1, (step_cfg H env u e).trans hI.2⟩

def checkPicked : List Input :=
  [.event .gather, .event (.addRemoteCandidates [1] [2] [peerHost] false),
    .stun 6 (peerResponse [2] (Env.lan.txnId 3))]

def picksSafely (env : Env) (s : Session) : Input → Bool
  | .event .gather => !s.nomineeSelected
  | .event (.addRemoteCandidates _ _ _ eoc) => !eoc && !s.nomineeSelected
  | .event _ => false
  | .stun _ b =>
    let m := b.message env.net
    decide (m.msgType = bindingResponse) && decide (1 < s.cfg.consentMaxFailures) &&
      (s.pairOf m.txnId).all fun (i, p) => (s.recordSuccess env m i p).pickLeaves env

theorem pickLeaves_of_picksSafely {i : Input} (hf : (s.feed env i).isSome = true)
    (hi : s.picksSafely env i = true) : .pick false ∉ s.allowed H env (i.toEvent H) := by
  intro h
  cases i with
  | event e =>
    simp only [feed, isSome_ite] at hf
    have hin := inbound_isLocal (s := s) hf
    cases e with
    | gather => simp [Input.toEvent, allowed, hin, eventAllowed] at h
    | addRemoteCandidates ufrag pwd cands eoc =>
      simp only [picksSafely, Bool.and_eq_true, Bool.not_eq_true'] at hi
      obtain ⟨rfl, -⟩ := hi
      simp [Input.toEvent, allowed, hin, eventAllowed] at h
    | _ => cases hi
  | stun cid b =>
    simp only [feed, isSome_ite] at hf
    simp only [picksSafely, Bool.and_eq_true] at hi
    obtain ⟨-, j, p, hj, -, -, -, -, -, hl⟩ := stunAllowed_of_admits hf h
    have hleaves := hi.2
    simp only [hj, all_some] at hleaves
    rw [hleaves] at hl
    cases hl

private theorem not_losesNominee_of_picksSafely (s : Session) (i : Input)
    (hf : (s.feed env i).isSome = true) (hi : s.picksSafely env i = true) :
    ¬ s.losesNominee H env (i.toEvent H) := by
  have hpick : .pick false ∉ s.allowed H env (i.toEvent H) := pickLeaves_of_picksSafely hf hi
  have hfree (hn : s.nomineeSelected = false) (e : Event)
      (hp : ∀ leaves, .pick leaves ∉ s.allowed H env e) : ¬ s.losesNominee H env e := by
    rintro (h | ⟨-, h | ⟨leaves, h⟩⟩)
    · exact hp false h
    · rw [hn] at h
      cases h
    · exact hp leaves h
  cases i with
  | event e =>
    simp only [feed, isSome_ite] at hf
    have hin := inbound_isLocal (s := s) hf
    cases e with
    | gather =>
      refine hfree (by simpa [picksSafely] using hi) _ fun leaves h => ?_
      simp [Input.toEvent, allowed, hin, eventAllowed] at h
    | addRemoteCandidates ufrag pwd cands eoc =>
      simp only [picksSafely, Bool.and_eq_true, Bool.not_eq_true'] at hi
      refine hfree hi.2 _ fun leaves h => ?_
      obtain ⟨rfl, hn⟩ := hi
      simp [Input.toEvent, allowed, hin, eventAllowed] at h
    | _ => cases hi
  | stun cid b =>
    simp only [feed, isSome_ite] at hf
    simp only [picksSafely, Bool.and_eq_true, decide_eq_true_eq] at hi
    obtain ⟨⟨hres, hcons⟩, -⟩ := hi
    rintro (h | ⟨h | h, -⟩)
    · exact hpick h
    · rcases stunAllowed_of_admits hf h with ⟨⟨he, -⟩ | ⟨he, -⟩, -⟩ | ⟨-, ⟨-, hc⟩, -⟩
      · rw [hres] at he
        cases he
      · rw [hres] at he
        cases he
      · omega
    · exact stunAllowed_of_admits hf h

theorem nominee_kept_after_pick :
    ((create .lan {} {} true 7).play .lan checkPicked).any
        (fun s => decide (s.state = .checking) && s.nomineeSelected) = true ∧
      ((create .lan {} {} true 7).run zeroHmac .lan
        (checkPicked.map (·.toEvent zeroHmac))).nomineeKept = true := by
  have hsafe : (create .lan {} {} true 7).playAlong .lan (picksSafely .lan) checkPicked = true := by
    decide +kernel
  exact ⟨by decide +kernel, run_nomineeKept _ _ _ _ _ _ _
    (along_of_play not_losesNominee_of_picksSafely hsafe)⟩

def trickledAfterPick : List Input :=
  checkPicked ++ [.event (.addRemoteCandidates [1] [2] [peerHost] false)]

/-- The batch comes once more, and the rebuilt list has no follow-up. -/
theorem nominee_rebuilt_away :
    ¬ ∃ H : Hmac, ((create .lan {} {} true 7).run H .lan
      (trickledAfterPick.map (·.toEvent H))).nomineeKept = true := by
  rintro ⟨H, h⟩
  have hplay : ((create .lan {} {} true 7).play .lan trickledAfterPick).any
      (fun s => !s.nomineeKept) = true := by decide +kernel
  have hbad := run_of_play_any hplay H
  rw [h] at hbad
  cases hbad

end Session

end LinkIce
