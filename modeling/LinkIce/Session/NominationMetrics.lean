import LinkIce.Session.ConsentFreshness
import LinkIce.Session.HoldingPaths
import LinkIce.Session.Script

/-! What `nomination_metrics` reports of a Connected session, and the pair on which its
nomination was made. -/
namespace LinkIce
open Stun Option

structure NominationMetrics where
  rttUs : ℕ := 0
  localType : CandidateType := .host
  remoteType : CandidateType := .host
  transport : TransportType := .udp
  usesRelay : Bool := false
  nominated : Bool := false
  deriving DecidableEq

namespace CheckPair

def types (p : CheckPair) : CandidateType × CandidateType := (p.loc.type, p.rem.type)

end CheckPair

structure NominationMetrics.Describes (m : NominationMetrics) (p : CheckPair) : Prop where
  nominated : m.nominated = true
  localType : m.localType = p.loc.type
  remoteType : m.remoteType = p.rem.type
  usesRelay : m.usesRelay = p.usesRelay
  transport : m.transport = p.transportType

namespace Session

variable {H : Hmac} {env : Env} {s t : Session} {m : StunMessage} {cid : Cid} {fromTcp : Bool}
  {p : CheckPair} {q cur : Option CheckPair} {e : Event} {w : Session × Option CheckPair}

def nominationMetrics (s : Session) : NominationMetrics :=
  if s.state ≠ .connected then {}
  else
    { rttUs := s.rttEwmaUs
      localType := s.nominatedLocalType
      remoteType := s.nominatedRemoteType
      transport := s.nominatedTransport
      usesRelay := s.usesRelay
      nominated := true }

theorem describes_iff (h : s.state = .connected) : s.nominationMetrics.Describes p ↔
    s.types = p.types ∧ s.usesRelay = p.usesRelay ∧ s.nominatedTransport = p.transportType := by
  rw [nominationMetrics, if_neg (not_not_intro h)]
  constructor
  · intro hd
    exact ⟨Prod.ext hd.localType hd.remoteType, hd.usesRelay, hd.transport⟩
  · intro ⟨htypes, hrelay, htx⟩
    obtain ⟨hloc, hrem⟩ := Prod.mk.inj htypes
    exact ⟨rfl, hloc, hrem, hrelay, htx⟩

/-! ### The pair on which a nomination is made -/

instance (s : Session) (m : StunMessage) : Decidable (s.givesWay m) :=
  inferInstanceAs (Decidable (_ ∧ _ ∧ _))

instance (s : Session) : Decidable s.losesConsentAtOnce := inferInstanceAs (Decidable (_ ∧ _))

instance (s : Session) : Decidable s.flipRebuilds := inferInstanceAs (Decidable (_ ∧ _ ∧ _))

/-- The pair that the last USE-CANDIDATE request named, if the list has it. -/
def slotPair (env : Env) (s : Session) : Option CheckPair :=
  (s.nominationPair env s.pendingNomEp s.pendingNomTx).bind (s.checkList[·]?)

/-- The pair on which a successful check makes a nomination: its own, or the one in the slot. -/
def responseNominee (env : Env) (m : StunMessage) (s : Session) : Option (Option CheckPair) :=
  ((s.answered m).filter fun p => if s.controlling then
    s.cfg.aggressiveNomination || p.nomineeCheckSent else p.pendingNomination).map fun p =>
      if s.controlling then some p else s.slotPair env

/-- The session acts on the request as the controlled one, with the check list it has. -/
def obeys (m : StunMessage) (s : Session) : Prop :=
  (s.sameRole m = false ∧ s.controlling = false) ∨
    (s.givesWay m ∧ s.controlling = true ∧ ¬ s.flipRebuilds)

instance (m : StunMessage) (s : Session) : Decidable (s.obeys m) :=
  inferInstanceAs (Decidable (_ ∨ _))

def requestNominee (env : Env) (m : StunMessage) (cid : Cid) (fromTcp : Bool) (s : Session) :
    Option CheckPair :=
  let ep := s.endpointOf fromTcp cid
  if m.useCandidate = true ∧ ep.ip ≠ [] ∧ s.obeys m then
    ((s.nominationPair env ep (nominationTransport fromTcp)).bind (s.checkList[·]?)).filter
      (·.state = .succeeded)
  else none

def stunNominee (env : Env) (m : StunMessage) (cid : Cid) (fromTcp : Bool) (s : Session) :
    Option (Option CheckPair) :=
  if m.msgType = bindingRequest then (s.requestNominee env m cid fromTcp).map some
  else s.responseNominee env m

/-- The pair on which the event makes the session call `on_nominated`. The list need not have one
for the path that is passed on. -/
def nominee (H : Hmac) (env : Env) (s : Session) (e : Event) : Option (Option CheckPair) :=
  (s.inbound e).bind fun d =>
    (d.accepted H env).bind fun m => d.session.stunNominee env m d.cid d.fromTcp

theorem responseNominee_eq_some : s.responseNominee env m = some q ↔
    (∃ p, s.nominatesOwn m p ∧ some p = q) ∨
      ∃ p, s.nominatesDeferred m p ∧ s.slotPair env = q := by
  unfold responseNominee answered nominatesOwn nominatesDeferred
  simp only [map_eq_some_iff, filter_eq_some_iff]
  by_cases h : s.answersCheck m
  · simp only [if_pos h, map_eq_some_iff]
    cases s.controlling <;> simp [h] <;> grind
  · simp [h]

theorem requestNominee_eq_some (h : m.msgType = bindingRequest) :
    s.requestNominee env m cid fromTcp = some p ↔
      s.nominatesNow env m cid fromTcp p (s.arrivedByRelay fromTcp cid) := by
  unfold requestNominee nominatesNow nomineeSucceeded
  dsimp only
  rw [ite_none_right_eq_some, filter_eq_some_iff, bind_eq_some_iff]
  simp only [obeys, h, decide_eq_true_eq, true_and]
  tauto

theorem nominates_of_allowed {l : Label} (hl : l ∈ s.allowed H env e) (hn : l.nominates = true) :
    ∃ p, s.nominee H env e = some p := by
  rcases hl with hl | ⟨d, hd, ⟨hdel, -⟩ | ⟨m, -, hl⟩ | ⟨m, hm, hl⟩⟩
  · cases l with
    | nominateOwn | nominateDeferred | nominateNow =>
      cases e with
      | task k => cases k <;> exact hl.2.elim
      | _ => exact hl.elim
    | _ => cases hn
  · obtain ⟨strays, moves, rfl⟩ := Label.eq_deliver hdel
    cases hn
  · cases l with
    | nominateOwn | nominateDeferred | nominateNow => exact hl.elim
    | _ => cases hn
  · have hnominee : ∃ p, d.session.stunNominee env m d.cid d.fromTcp = some p := by
      have hresponse {q : Option CheckPair} (ht : m.msgType = bindingResponse)
          (h : d.session.responseNominee env m = some q) :
          ∃ p, d.session.stunNominee env m d.cid d.fromTcp = some p := by
        rw [stunNominee, if_neg (by rw [ht]; decide)]
        exact ⟨q, h⟩
      cases l with
      | nominateOwn p =>
        exact hresponse hl.1.1 (responseNominee_eq_some.mpr (.inl ⟨p, hl, rfl⟩))
      | nominateDeferred p fits =>
        exact hresponse hl.1.1.1 (responseNominee_eq_some.mpr (.inr ⟨p, hl.1, rfl⟩))
      | nominateNow p relay revives =>
        obtain ⟨htype, hsucc, rfl, hrole⟩ := hl.1
        rw [stunNominee, if_pos htype]
        exact ⟨some p, congrArg (Option.map some)
          ((requestNominee_eq_some htype).mpr ⟨htype, hsucc, rfl, hrole⟩)⟩
      | _ => cases hn
    rw [nominee, mem_def.mp hd, bind_some, mem_def.mp hm, bind_some]
    exact hnominee

/-! ### Between nominations -/

theorem act_standing {l : Option Label} (h : Act env s l t) (hl : ∀ a ∈ l, a.nominates = false)
    (ht : t.state = .connected) : s.state = .connected ∧ t.usesRelay = s.usesRelay ∧
      t.nominatedTransport = s.nominatedTransport := by
  by_cases hdown : l = some .teardown
  · subst hdown
    cases h with
    | teardown => exact ⟨ht, rfl, rfl⟩
  · have hroute : SameRoute s t := by
      refine act_sameRoute h (fun a ha => ?_) ht
      have hquiet := hl a ha
      cases a with
      | teardown => exact absurd ha hdown
      | nominateOwn | nominateDeferred | nominateNow => cases hquiet
      | _ => rfl
    exact ⟨hroute.state.symm.trans ht, hroute.relay, hroute.transport⟩

/-- A step without a nominee leaves the nomination of a Connected session alone. -/
theorem step_standing (hn : s.nominee H env e = none)
    (ht : (s.step H env e).state = .connected) : s.state = .connected ∧
      (s.step H env e).usesRelay = s.usesRelay ∧
      (s.step H env e).nominatedTransport = s.nominatedTransport := by
  refine (step_steps H env s e).invariant (I := fun u => u.state = .connected →
    s.state = .connected ∧ u.usesRelay = s.usesRelay ∧
      u.nominatedTransport = s.nominatedTransport) ?_ (fun hs => ⟨hs, rfl, rfl⟩) ht
  intro u v l hl hact hu hv
  have hquiet : ∀ a ∈ l, a.nominates = false := by
    intro a ha
    by_contra hnom
    obtain ⟨p, hp⟩ := nominates_of_allowed (hl a ha) (by simpa using hnom)
    rw [hn] at hp
    cases hp
  obtain ⟨hustate, hrelay, htx⟩ := act_standing hact hquiet hv
  obtain ⟨hs, hrelay', htx'⟩ := hu hustate
  exact ⟨hs, hrelay.trans hrelay', htx.trans htx'⟩

theorem step_types : (s.step H env e).types = s.reported H env e := by
  by_cases he : ∃ buf, e = .send buf
  · obtain ⟨buf, rfl⟩ := he
    obtain ⟨pending, handed, h⟩ := sendPosted_holdings
    exact congrArg Holdings.types h
  · obtain ⟨u, -, htypes, hp⟩ := step_passage fun buf hb => he ⟨buf, hb⟩
    exact hp.types.trans htypes

theorem reported_of_connected (h : s.state = .connected) : s.reported H env e = s.types := by
  unfold reported
  cases hin : s.inbound e with
  | none => rfl
  | some d =>
    obtain ⟨hinert, htypes⟩ := inbound_inert hin
    change (taught H env d).types = s.types
    unfold taught
    cases d.accepted H env with
    | none => exact htypes
    | some m =>
      have hquiet : ¬ d.session.answersCheck m := by
        intro hcheck
        have hstate := hinert.state.symm.trans hcheck.2.2
        rw [h] at hstate
        cases hstate
      change (d.session.learned m).types = s.types
      rw [learned_of_unanswered hquiet]
      exact htypes

/-! ### A nomination -/

/-- From `s` a nomination on the pair `q` has led to `t`. The session has lost consent at once, or
it is Connected and describes the pair under the condition `P`. -/
structure Nominates (q : Option CheckPair) (P : CheckPair → Prop) (s t : Session) : Prop where
  lost : s.losesConsentAtOnce → t.state ≠ .connected
  connected : ¬ s.losesConsentAtOnce → t.state = .connected
  describes : ¬ s.losesConsentAtOnce → ∀ p ∈ q, (t.nominationMetrics.Describes p ↔ P p)

theorem Nominates.congr {P Q : CheckPair → Prop} {s' : Session} (h : Nominates q P s t)
    (hcfg : s.cfg = s'.cfg) (hPQ : ∀ p ∈ q, (P p ↔ Q p)) : Nominates q Q s' t := by
  have hloses : s.losesConsentAtOnce ↔ s'.losesConsentAtOnce := by
    rw [losesConsentAtOnce, losesConsentAtOnce, hcfg]
  exact ⟨fun hl => h.lost (hloses.mpr hl), fun hk => h.connected fun hl => hk (hloses.mp hl),
    fun hk p hp => (h.describes (fun hl => hk (hloses.mp hl)) p hp).trans (hPQ p hp)⟩

/-- A nomination reports the types that were noted and the path that was passed on. -/
theorem onNominated_nominates (env : Env) (origin : NominationOrigin) (ep : Endpoint)
    (relay : Bool) (cid : Cid) (tx : TransportType) (q : Option CheckPair) (s : Session) :
    Nominates q (fun p => s.types = p.types ∧ relay = p.usesRelay ∧ tx = p.transportType) s
      (s.onNominated env origin ep relay cid tx) := by
  have hkept (hkeeps : ¬ s.losesConsentAtOnce) :
      (s.onNominated env origin ep relay cid tx).state = .connected ∧
      (s.onNominated env origin ep relay cid tx).usesRelay = relay ∧
      (s.onNominated env origin ep relay cid tx).nominatedTransport = tx := by
    obtain ⟨n, hn⟩ := onNominated_core hkeeps
    exact ⟨congrArg Core.state hn, congrArg Core.usesRelay hn, congrArg Core.nominatedTransport hn⟩
  constructor
  · intro hloses
    rw [onNominated_eq, (beginPathMtu_measures env _).state]
    have hcore : (s.announced env origin ep relay cid tx).core = _ := announced_core
    have hcfg : (s.announced env origin ep relay cid tx).cfg = s.cfg := congrArg Core.cfg hcore
    have hmissed : (s.announced env origin ep relay cid tx).consentMissed = 0 :=
      congrArg Core.consentMissed hcore
    refine onKeepalive_notConnected ⟨congrArg Core.state hcore, ?_, ?_⟩
      (congrArg Core.autoRestartLast hcore)
    · rw [hcfg]
      exact hloses.1
    · rw [hcfg, hmissed]
      exact hloses.2
  · exact fun hkeeps => (hkept hkeeps).1
  · intro hkeeps p _
    obtain ⟨hstate, hrelay, htx⟩ := hkept hkeeps
    rw [describes_iff hstate, onNominated_types, hrelay, htx]

/-- The pair that the code looks up for a path has its transport. -/
theorem transportType_of_nominationPair {ep : Endpoint} {tx : TransportType}
    (h : (s.nominationPair env ep tx).bind (s.checkList[·]?) = some p) :
    p.endpoint env.net = ep ∧ p.transportType = tx := by
  obtain ⟨i, hi, hp⟩ := bind_eq_some_iff.mp h
  obtain ⟨hlt, hfound, -⟩ := List.findIdx?_eq_some_iff_getElem.mp hi
  have hat : s.checkList[i] = p := some.inj ((List.getElem?_eq_getElem hlt).symm.trans hp)
  rw [hat] at hfound
  simpa using hfound

/-- The types are those of the pair whose check has succeeded. The controlling side passes on the
pair's own path, the controlled one that of the last USE-CANDIDATE request. -/
theorem handleCheckResponse_reports (h : s.responseNominee env m = some q) :
    Nominates q (fun p => s.controlling = true ∨
      ((s.answered m).map (·.types) = some p.types ∧ s.pendingNomRelay = p.usesRelay)) s
      (s.handleCheckResponse env m) := by
  obtain ⟨i, r, hcheck, hpair⟩ : ∃ i r, s.answersCheck m ∧ s.pairOf m.txnId = some (i, r) := by
    rcases responseNominee_eq_some.mp h with ⟨r, ⟨hcheck, ⟨i, hi⟩, -⟩, -⟩ |
        ⟨r, ⟨hcheck, ⟨i, hi⟩, -⟩, -⟩
    exacts [⟨i, r, hcheck, hi⟩, ⟨i, r, hcheck, hi⟩]
  have hans : s.answered m = some r := by rw [answered, if_pos hcheck, hpair, map_some]
  rw [handleCheckResponse, if_neg (not_not_intro hcheck.2.2), hpair]
  dsimp only
  have hcore := recordSuccess_core env m i r s
  have htypes : (s.recordSuccess env m i r).types = r.types := (recordSuccess_retains env s).types
  generalize s.recordSuccess env m i r = u at hcore htypes ⊢
  have hcfg : u.cfg = s.cfg := congrArg Core.cfg hcore
  have hctl : u.controlling = s.controlling := congrArg Core.controlling hcore
  rcases responseNominee_eq_some.mp h with ⟨p, ⟨-, ⟨j, hj⟩, hown, hnow⟩, rfl⟩ |
    ⟨p, ⟨-, ⟨j, hj⟩, hother, hpending⟩, rfl⟩
  all_goals obtain ⟨rfl, rfl⟩ := Prod.mk.inj (some.inj (hj.symm.trans hpair))
  · have hdecide : u.onPairSucceeded env j p = u.nominatePair env p := by
      rw [onPairSucceeded, hctl, hown, hcfg, if_neg (by decide), if_pos (by simpa using hnow)]
    rw [hdecide]
    have hquiet := nomineeCid_quiet env u p
    have hkept := (nomineeCid_retains env u p).types.trans htypes
    refine (onNominated_nominates env _ _ _ _ _ _ _).congr (hquiet.cfg.trans hcfg) fun p' hp => ?_
    obtain rfl := some.inj hp
    exact iff_of_true ⟨hkept, rfl, rfl⟩ (.inl hown)
  · have hdecide : u.onPairSucceeded env j p = u.nominateDeferred env j p := by
      rw [onPairSucceeded, hctl, hother, if_pos (by decide), if_pos hpending]
    rw [hdecide]
    have hrelay : u.pendingNomRelay = s.pendingNomRelay := congrArg Core.pendingNomRelay hcore
    have htx : u.pendingNomTx = s.pendingNomTx := congrArg Core.pendingNomTx hcore
    refine (onNominated_nominates env _ _ _ _ _ _ _).congr hcfg fun p' hp => ?_
    have hsame : (u.modifyPair j fun p => { p with pendingNomination := false }).types = p.types :=
      htypes
    rw [hrelay, htx, hother, hans, (transportType_of_nominationPair hp).2]
    simp [hsame]

/-- A request leaves the types as they are: those of the pair whose check succeeded last. -/
theorem acceptRequest_reports (hc : s.controlling = false)
    (hp : s.nomineeSucceeded env m cid fromTcp p) :
    Nominates (some p) (fun p => s.types = p.types ∧ s.arrivedByRelay fromTcp cid = p.usesRelay) s
      (s.acceptRequest env m cid fromTcp) := by
  rw [acceptRequest_nominated hc hp]
  obtain ⟨-, -, -, i, hi, hpi⟩ := hp
  obtain ⟨hep, htx⟩ := transportType_of_nominationPair (bind_eq_some_iff.mpr ⟨i, hi, hpi⟩)
  have hcore := answerRequest_core m cid fromTcp s
  have htypes := (answerRequest_retains s m cid fromTcp).types
  generalize s.answerRequest m cid fromTcp = u at hcore htypes ⊢
  have hcfg : u.cfg = s.cfg := congrArg Core.cfg hcore
  have hmem : p ∈ u.checkList := by
    rw [show u.checkList = s.checkList from congrArg Core.checkList hcore]
    exact List.mem_of_getElem? hpi
  have hnom := (onNominated_nominates env .useCandidate (s.endpointOf fromTcp cid)
    (s.arrivedByRelay fromTcp cid) cid (nominationTransport fromTcp) (some p) u).congr hcfg
      (Q := fun p => s.types = p.types ∧ s.arrivedByRelay fromTcp cid = p.usesRelay)
      (by simp [htypes, htx])
  by_cases hloses : u.losesConsentAtOnce
  · have hlost := hnom.lost (by rwa [losesConsentAtOnce, ← hcfg])
    refine ⟨fun _ ht => hlost (maybeTriggerCheckFromPeer_calm env _ _ ht).1, ?_, ?_⟩
    · exact fun hkeeps => absurd hloses (by rwa [losesConsentAtOnce, hcfg])
    · exact fun hkeeps => absurd hloses (by rwa [losesConsentAtOnce, hcfg])
  · rw [maybeTriggerCheckFromPeer_known env (p := p) _ hep]
    · exact hnom
    · rw [onNominated_checkList _ _ _ _ _ hloses]
      exact hmem

theorem handleBindingRequest_reports (h : s.nominatesNow env m cid fromTcp p
    (s.arrivedByRelay fromTcp cid)) :
    Nominates (some p) (fun p => s.types = p.types ∧ s.arrivedByRelay fromTcp cid = p.usesRelay) s
      (s.handleBindingRequest env m cid fromTcp) := by
  obtain ⟨-, hsucc, -, ⟨hother, hc⟩ | ⟨hgives, hc, hkeeps⟩⟩ := h
  · rw [handleBindingRequest, if_neg (by simp [hother])]
    exact acceptRequest_reports hc hsucc
  · have hconflict := (handleRoleConflict_eq env s m hgives.1).resolve_right fun h => h.1 hgives
    have hflip := (flipRole_eq env s).resolve_left fun h => hkeeps h.1
    rw [handleBindingRequest, if_pos hgives.1, hconflict.2, hflip.2]
    dsimp only
    rw [if_pos rfl]
    refine (acceptRequest_reports (s := { s with controlling := !s.controlling }) ?_ hsucc).congr
      rfl fun _ _ => Iff.rfl
    simp [hc]

/-- What the call passes on, and the types noted before it, are those of the pair. -/
def Suits (m : StunMessage) (cid : Cid) (fromTcp : Bool) (s : Session) (p : CheckPair) : Prop :=
  if m.msgType = bindingRequest then
    s.types = p.types ∧ s.arrivedByRelay fromTcp cid = p.usesRelay
  else s.controlling = true ∨
    ((s.answered m).map (·.types) = some p.types ∧ s.pendingNomRelay = p.usesRelay)

instance (m : StunMessage) (cid : Cid) (fromTcp : Bool) (s : Session) (p : CheckPair) :
    Decidable (s.Suits m cid fromTcp p) :=
  inferInstanceAs (Decidable (if m.msgType = bindingRequest then
    s.types = p.types ∧ s.arrivedByRelay fromTcp cid = p.usesRelay
    else s.controlling = true ∨
      ((s.answered m).map (·.types) = some p.types ∧ s.pendingNomRelay = p.usesRelay)))

theorem onStun_reports (h : s.stunNominee env m cid fromTcp = some q) :
    Nominates q (s.Suits m cid fromTcp) s (s.onStun env m cid fromTcp) := by
  unfold stunNominee at h
  unfold Suits onStun
  by_cases htype : m.msgType = bindingRequest
  · simp only [if_pos htype] at h ⊢
    rw [if_neg (by rw [htype]; decide), if_neg (by rw [htype]; decide)]
    obtain ⟨p, hp, rfl⟩ := map_eq_some_iff.mp h
    exact handleBindingRequest_reports ((requestNominee_eq_some htype).mp hp)
  · simp only [if_neg htype] at h ⊢
    have hcheck : s.answersCheck m := by
      rcases responseNominee_eq_some.mp h with ⟨-, ⟨hcheck, -⟩, -⟩ | ⟨-, ⟨hcheck, -⟩, -⟩
      exacts [hcheck, hcheck]
    rw [if_neg (by rw [hcheck.1]; decide), if_pos hcheck.1, handleSuccessResponse,
      if_neg hcheck.2.1, if_neg (by rw [hcheck.2.2]; decide)]
    exact handleCheckResponse_reports h

/-! ### Runs -/

/-- A nomination that the event leads to is described, or consent is lost with it. -/
def nominatesFaithfully (H : Hmac) (env : Env) (s : Session) (e : Event) : Prop :=
  ∀ d ∈ s.inbound e, ∀ m ∈ d.accepted H env, ∀ q ∈ d.session.stunNominee env m d.cid d.fromTcp,
    d.session.losesConsentAtOnce ∨ ∃ p ∈ q, d.session.Suits m d.cid d.fromTcp p

def trackNominee (H : Hmac) (env : Env) : Session × Option CheckPair → Event →
    Session × Option CheckPair :=
  withHistory (step H env) fun cur s e => (s.nominee H env e).getD cur

def Described (w : Session × Option CheckPair) : Prop :=
  w.1.state = .connected → ∃ p ∈ w.2, w.1.nominationMetrics.Describes p

private theorem nominee_eq_some (h : s.nominee H env e = some q) : ∃ d ∈ s.inbound e,
    ∃ m ∈ d.accepted H env, d.session.stunNominee env m d.cid d.fromTcp = some q := by
  obtain ⟨d, hd, h⟩ := bind_eq_some_iff.mp h
  obtain ⟨m, hm, h⟩ := bind_eq_some_iff.mp h
  exact ⟨d, hd, m, hm, h⟩

theorem described_step_iff (hw : Described w) :
    Described (trackNominee H env w e) ↔ w.1.nominatesFaithfully H env e := by
  obtain ⟨s, cur⟩ := w
  cases hn : s.nominee H env e with
  | none =>
    have hfaithful : s.nominatesFaithfully H env e := by
      intro d hd m hm q hq
      rw [nominee, mem_def.mp hd, bind_some, mem_def.mp hm, bind_some, mem_def.mp hq] at hn
      cases hn
    refine iff_of_true (fun ht => ?_) hfaithful
    obtain ⟨hs, hrelay, htx⟩ := step_standing hn ht
    obtain ⟨p, hp, hdesc⟩ := hw hs
    refine ⟨p, ?_, ?_⟩
    · simpa [trackNominee, withHistory, hn] using hp
    · have htypes : (s.step H env e).types = s.types :=
        step_types.trans (reported_of_connected hs)
      rw [describes_iff hs, ← htypes, ← hrelay, ← htx] at hdesc
      exact (describes_iff ht).mpr hdesc
  | some q =>
    obtain ⟨d, hd, m, hm, hq⟩ := nominee_eq_some hn
    have hreports := onStun_reports hq
    have hstep : s.step H env e = d.session.onStun env m d.cid d.fromTcp := by
      rw [(step_inbound H env hd).2]
      exact onCarrierData_accepted hm
    have hcond : s.nominatesFaithfully H env e ↔ d.session.losesConsentAtOnce ∨
        ∃ p ∈ q, d.session.Suits m d.cid d.fromTcp p := by
      constructor
      · exact fun h => h d hd m hm q hq
      · intro h d' hd' m' hm' q' hq'
        obtain rfl := mem_unique hd hd'
        obtain rfl := mem_unique hm hm'
        obtain rfl := mem_unique hq hq'
        exact h
    have hlast : (trackNominee H env (s, cur) e).2 = q := by
      simp [trackNominee, withHistory, hn]
    have hnow : (trackNominee H env (s, cur) e).1 = d.session.onStun env m d.cid d.fromTcp := hstep
    rw [hcond, Described, hlast, hnow]
    by_cases hloses : d.session.losesConsentAtOnce
    · exact iff_of_true (fun ht => absurd ht (hreports.lost hloses)) (.inl hloses)
    · rw [or_iff_right hloses, forall_prop_of_true (hreports.connected hloses)]
      exact exists_congr fun p => and_congr_right fun hp => hreports.describes hloses p hp

/-- **The metrics** of a Connected session are those of the pair on which its nomination was made,
in all states of a run, if and only if all its nominations are faithful. The controlling side's
always are. A deferred one is made on the pair that the last USE-CANDIDATE request named, and is
faithful if the check that completes it is of a pair with the same candidate types, and one at once
if the check that succeeded last was; in both cases the request must have come through our relay
exactly for a pair with a relay candidate. -/
theorem metrics_describe_iff (H : Hmac) (env : Env) (cfg : IceConfig) (w : Wiring)
    (controlling : Bool) (tiebreaker : ℕ) (es : List Event) :
    (∀ fs, fs <+: es →
      Described (fs.foldl (trackNominee H env) (create env cfg w controlling tiebreaker, none))) ↔
      Along (step H env) (nominatesFaithfully H env) (create env cfg w controlling tiebreaker)
        es := by
  have hnew : Described (create env cfg w controlling tiebreaker, none) := nofun
  rw [forall_prefix_iff_along (fun _ _ hs => described_step_iff hs) hnew]
  exact along_withHistory

/-- The checks of a controlled session to a host and to a reflexive candidate succeed. -/
def bothAnswered : List Input :=
  [.event .gather, .event (.addRemoteCandidates [1] [2] [peerHost, { peerHost2 with
      type := .srflx, priority := computePriority .srflx 65535 1 }] false),
    .stun 7 (peerResponse [2] (Env.lan.txnId 3)), .stun 11 (peerResponse [2] (Env.lan.txnId 4))]

def hostChosen : StunBuilder := peerRequest (be32 0) (Env.lan.txnId 50) true true 9

/-- The request leads to a nomination that is not described. -/
def misreports (cid : Cid) (b : StunBuilder) (s : Session) : Bool :=
  decide (s.state ≠ .connected) && s.admits .lan cid b &&
    (s.stunNominee .lan (b.message Env.lan.net) cid false).any fun q =>
      !decide s.losesConsentAtOnce && !q.any (s.Suits (b.message Env.lan.net) cid false ·)

private theorem not_described_of_misreports {b : StunBuilder} (h : w.1.misreports cid b = true) :
    ¬ Described (trackNominee H .lan w (.udpData cid (b.build H))) := by
  simp only [misreports, Bool.and_eq_true, decide_eq_true_eq, any_eq_true,
    Bool.not_eq_true', decide_eq_false_iff_not, any_eq_false] at h
  obtain ⟨⟨hstate, hadmits⟩, q, hq, hkeeps, hsuits⟩ := h
  rw [described_step_iff fun hc => absurd hc hstate]
  intro hfaithful
  rcases hfaithful _ rfl _ (accepted_of_admits false hadmits) q hq with hloses | ⟨p, hp, hs⟩
  · exact hkeeps hloses
  · exact hsuits p hp hs

/-- The types reported are those of the pair whose check was answered last, not those of the
nominated one. -/
theorem last_answer_reported : ¬ ∃ H : Hmac,
    Described (((bothAnswered ++ [.stun 7 hostChosen] : List Input).map (·.toEvent H)).foldl
      (trackNominee H .lan) (create .lan {} {} false 7, none)) := by
  intro ⟨H, h⟩
  have hplay : ((create .lan {} {} false 7).play .lan bothAnswered).any
      (misreports 7 hostChosen) = true := by decide +kernel
  have hbad := run_of_play_any hplay H
  rw [List.map_append, List.foldl_append] at h
  refine not_described_of_misreports ?_ h
  rw [trackNominee, withHistory_fst]
  exact hbad

end Session

end LinkIce
