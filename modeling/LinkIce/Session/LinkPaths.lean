import LinkIce.Session.TransactionIds

/-! Connection ids along the actions: outside restart and teardown they are only added. -/
namespace LinkIce
open Stun

def Label.keepsLinks : Label → Bool
  | .restart | .teardown | .rxBuffers => false
  | _ => true

/-- The connections without those that `tear_down_cids` closes; relayed endpoints keep
their ids. -/
def Links.tornDown (k : Links) : Links :=
  { k with endpointToCid := ∅, cidToEndpointUdp := ∅, tcpRxBuffers := ∅ }

namespace Session

variable {H : Hmac} {env : Env} {A : Set Label} {s t : Session} {cid : Cid} {fromTcp relay : Bool}
  {m : StunMessage} {p : CheckPair} {i : ℕ}

theorem emit_links {e : Effect} : (s.emit e).links = s.links := rfl

theorem modifyPair_links {f : CheckPair → CheckPair} :
    (s.modifyPair i f).links = s.links := rfl

theorem unfreezeSiblings_links {l r : Bytes} : (s.unfreezeSiblings l r).links = s.links := rfl

theorem commitNomination_links {origin : NominationOrigin} {ep : Endpoint}
    {tx : TransportType} : (s.commitNomination origin ep relay cid tx).links = s.links := rfl

theorem buildCheckList_links : (s.buildCheckList env).links = s.links := by
  obtain ⟨_, _, _, h⟩ := buildCheckList_eq
  rw [h]
  rfl

theorem act_links {l : Option Label} (h : Act env s l t) (hl : ∀ a ∈ l, a.keepsLinks = true) :
    Relation.ReflTransGen Links.Opens s.links t.links := by
  cases h with
  | quiet h | work h | release h | deliver h | turnInput h => exact h.links
  | rebuild =>
    rw [buildCheckList_links]
  | check i | liteCheck i =>
    obtain ⟨ps, rs, h⟩ := sendCheck_keeps env s
    exact h.links
  | pick =>
    obtain ⟨sel, ps, rs, h⟩ := pickNominee_keeps env s
    exact h.links
  | succeed => rw [succeedPair, emit_links, unfreezeSiblings_links, modifyPair_links]
  | nominateDeferred => rw [commitNomination_links, modifyPair_links]
  | respond | reject => exact (reply_keeps).links
  | restart | autoRestart | teardown | rxBuffers => cases hl _ rfl
  | _ => exact .refl

theorem steps_links (h : Steps env A s t) (hA : ∀ a ∈ A, a.keepsLinks = true) :
    Relation.ReflTransGen Links.Opens s.links t.links := by
  induction h with
  | refl => exact .refl
  | tail _ hact hl ih => exact ih.trans (act_links hact fun a ha => hA a (hl a ha))

theorem wipeForRestart_links : s.wipeForRestart.links = s.links.tornDown := by
  unfold wipeForRestart unregisterMdns
  split_ifs <;> rfl

theorem turnOutputs_links (env : Env) (c : TurnClient) {outs : List TurnOutput} (s : Session)
    (h : ∀ o ∈ outs, ∃ b, o = .toServer b) : (s.turnOutputs env c outs).links = s.links := by
  unfold turnOutputs
  induction outs generalizing s with
  | nil => rfl
  | cons o outs ih =>
    obtain ⟨b, rfl⟩ := h o List.mem_cons_self
    rw [List.foldl_cons, ih _ fun o ho => h o (List.mem_cons_of_mem _ ho)]
    rfl

theorem turnClose_links : (s.turnClose env).links = s.links := by
  unfold turnClose
  cases s.turn with
  | none => rfl
  | some c => exact turnOutputs_links env _ _ (TurnClient.close_requests)

theorem turnBackupProbeClose_links : (s.turnBackupProbeClose env).links = s.links := by
  unfold turnBackupProbeClose
  cases s.turnBackupProbe with
  | none => rfl
  | some c => exact turnOutputs_links env _ _ (TurnClient.close_requests)

theorem dropTurn_links : (s.dropTurn env).links = s.links := by
  have hset (u : Session) : ({ u with turn := none } : Session).links = u.links := rfl
  rw [dropTurn, hset, turnClose_links]

theorem dropTurnBackupProbe_links : (s.dropTurnBackupProbe env).links = s.links := by
  have hset (u : Session) : ({ u with turnBackupProbe := none } : Session).links = u.links := rfl
  rw [dropTurnBackupProbe, hset, turnBackupProbeClose_links]

theorem cancelTimers_links : s.cancelTimers.links = s.links := rfl

theorem restartTimers_links : (s.restartTimers env).links = s.links := by
  have hset (u : Session) :
      ({ u with
          turnBackups := []
          turnAttemptIdx := 0
          turnBackupProbeIdx := 0
          turnLastFailover := 0 } : Session).links = u.links := rfl
  rw [restartTimers, hset, dropTurnBackupProbe_links, dropTurn_links, cancelTimers_links]

theorem freshCredentials_links : (s.freshCredentials env).links = s.links := rfl

theorem setState_links {st : SessionState} : (s.setState st).links = s.links := rfl

theorem reset_links (env : Env) (s : Session) : (s.reset env).links = s.links.tornDown := by
  rw [reset, setState_links, wipeForRestart_links, freshCredentials_links, restartTimers_links,
    emit_links]

theorem tearDownCids_links :
    ({ s.tearDownCids with nominatedCid := 0 } : Session).links = s.links.tornDown := rfl

theorem unregisterMdns_links : s.unregisterMdns.links = s.links := by
  unfold unregisterMdns
  split_ifs <;> rfl

theorem releasePortmapMapping_links : s.releasePortmapMapping.links = s.links := by
  unfold releasePortmapMapping
  split_ifs
  · cases s.portmapMapping <;> rfl
  · rfl

theorem closeTeardown_links : (s.closeTeardown env).links = s.links.tornDown := by
  unfold closeTeardown
  extract_lets u
  rw [tearDownCids_links, releasePortmapMapping_links]
  dsimp only [u]
  rw [unregisterMdns_links, turnBackupProbeClose_links, turnClose_links, cancelTimers_links]

/-! ### A message that nominates -/

/-- From `s` to `t` connections were only opened and nothing was published. -/
structure Leads (s t : Session) : Prop where
  cfg : t.cfg = s.cfg
  localUfrag : t.localUfrag = s.localUfrag
  links : Relation.ReflTransGen Links.Opens s.links t.links
  unpublished : Logs (·.isPublication = false) s t
  draws : s.draws ≤ t.draws

theorem Leads.log (h : Leads s t) : s.log <:+ t.log := by
  obtain ⟨new, hn, -⟩ := h.unpublished
  exact ⟨new, hn.symm⟩

theorem Leads.trans_quiet {u : Session} (h : Leads s t) (hq : Quiet t u) : Leads s u where
  cfg := hq.cfg.trans h.cfg
  localUfrag := (congrArg Core.localUfrag hq.core).trans h.localUfrag
  links := h.links.trans hq.links
  unpublished := by
    refine h.unpublished.trans ((Logs.of_keepsCore hq.toKeepsCore).mono fun e he => ?_)
    cases e with
    | onGathered => cases he
    | _ => rfl
  draws := h.draws.trans hq.draws

theorem recordSuccess_leads (env : Env) (m : StunMessage) (i : ℕ) (p : CheckPair) (s : Session) :
    Leads s (s.recordSuccess env m i p) := by
  have hnote : Steps env { l | ∃ c, l = .prflx c } s (s.noteResponse env m p) :=
    noteResponse_steps m p fun c _ => ⟨c, rfl⟩
  have hdraws : s.draws ≤ (s.noteResponse env m p).draws := steps_draws hnote
  refine ⟨congrArg Core.cfg (recordSuccess_core env m i p s),
    congrArg Core.localUfrag (recordSuccess_core env m i p s), ?_, ?_, hdraws⟩
  · rw [recordSuccess, succeedPair, emit_links, unfreezeSiblings_links, modifyPair_links]
    exact steps_links hnote (by rintro l ⟨c, rfl⟩; rfl)
  · refine (steps_unpublished hnote (by simp)).trans ?_
    exact .emit _ rfl

def nominationLabels : Set Label
  | .prflx _ | .respond _ _ | .flip | .nominateOwn _ | .nominateDeferred _ _
  | .nominateNow _ _ _ => True
  | _ => False

theorem recordSuccess_steps (hs : s.state = .checking) (hi : s.pairOf m.txnId = some (i, p)) :
    Steps env nominationLabels s (s.recordSuccess env m i p) := by
  have hnote := noteResponse_core env m p s
  have hpair : (s.noteResponse env m p).checkList[i]? = some p := by
    rw [show (s.noteResponse env m p).checkList = s.checkList from congrArg Core.checkList hnote]
    exact (pairOf_eq_some.mp hi).2
  refine Path.after (Path.silent ?_) (noteResponse_steps m p fun c _ => trivial)
  exact .succeed _ i p ((congrArg Core.state hnote).trans hs) hpair

/-- It comes to one call of `on_nominated`, which leaves a session that `R` holds of. -/
def LeadsToNomination (env : Env) (s : Session) (R : Endpoint → Session → Prop) : Prop :=
  ∃ (v : Session) (origin : NominationOrigin) (ep : Endpoint) (relay : Bool) (c : Cid)
    (tx : TransportType), Leads s v ∧
    Steps env nominationLabels s (v.commitNomination origin ep relay c tx) ∧
    R ep (v.onNominated env origin ep relay c tx)

theorem handleCheckResponse_nominates
    (h : (∃ p, s.nominatesOwn m p) ∨ ∃ p, s.nominatesDeferred m p) :
    LeadsToNomination env s fun _ t => s.handleCheckResponse env m = t := by
  unfold handleCheckResponse
  have key (i : ℕ) (p : CheckPair) :
      (s.recordSuccess env m i p).controlling = s.controlling :=
    congrArg Core.controlling (recordSuccess_core env m i p s)
  rcases h with ⟨p, ⟨-, -, hs⟩, ⟨i, hi⟩, hc, hn⟩ | ⟨p, ⟨-, -, hs⟩, ⟨i, hi⟩, hc, hn⟩
  all_goals
    have hctl := key i p
    have hleads := recordSuccess_leads env m i p s
    have hpath : Steps env nominationLabels s (s.recordSuccess env m i p) :=
      recordSuccess_steps hs hi
    have hst : (s.recordSuccess env m i p).state = .checking :=
      (congrArg Core.state (recordSuccess_core env m i p s)).trans hs
    have hmem : .checkSucceeded p ∈ (s.recordSuccess env m i p).sinceRestart :=
      mem_sinceRestart_self (by simp)
    rw [if_neg (not_not.mpr hs), hi]
    dsimp only [onPairSucceeded]
  · rw [if_neg (by simp [hctl, hc]), if_pos (by simpa [hleads.cfg] using hn)]
    have hq := nomineeCid_quiet env (s.recordSuccess env m i p) p
    refine ⟨_, _, _, _, _, _, hleads.trans_quiet hq, ?_, rfl⟩
    refine (hpath.trans (steps_quiet hq)).trans (.visible (.nominateOwn _ p _ _ ?_ ?_ ?_
      ((Extends.of_quiet hq).mem_sinceRestart hmem)) trivial)
    · rw [hq.state, hst]
    · rw [hq.controlling, hctl, hc]
    · rwa [hq.cfg, hleads.cfg]
  · rw [if_pos (by simp [hctl, hc]), if_pos hn]
    have hpair : (s.noteResponse env m p).checkList[i]? = some p := by
      rw [show (s.noteResponse env m p).checkList = s.checkList from
        congrArg Core.checkList (noteResponse_core env m p s)]
      exact (pairOf_eq_some.mp hi).2
    have hpend := recordSuccess_pending hpair hn
    generalize s.recordSuccess env m i p = r at hleads hpath hst hmem hpend hctl
    exact ⟨r.modifyPair i fun p => { p with pendingNomination := false }, _, _, _, _, _,
      ⟨hleads.cfg, hleads.localUfrag, hleads.links, hleads.unpublished, hleads.draws⟩,
      hpath.trans (.visible (.nominateDeferred r i p hst (hctl.trans hc) hpend hmem) trivial), rfl⟩

theorem acceptRequest_nominates (hc : s.controlling = false)
    (hp : s.nomineeSucceeded env m cid fromTcp p) :
    LeadsToNomination env s fun ep t =>
      s.acceptRequest env m cid fromTcp = t.maybeTriggerCheckFromPeer env ep := by
  have hans : Steps env { .respond m.txnId m.useCandidate } s (s.answerRequest m cid fromTcp) :=
    answerRequest_steps m cid fromTcp rfl
  have hcore := answerRequest_core m cid fromTcp s
  refine ⟨_, _, _, _, _, _, ⟨congrArg Core.cfg hcore, congrArg Core.localUfrag hcore,
    steps_links hans (by simp [Label.keepsLinks]), steps_unpublished hans nofun, steps_draws hans⟩,
    ?_, acceptRequest_nominated hc hp⟩
  obtain ⟨huc, -, hps, i, hi, hpi⟩ := hp
  obtain ⟨he, ht⟩ := nominationPair_spec hi hpi
  have hrelay : (s.answerRequest m cid fromTcp).arrivedByRelay fromTcp cid =
      s.arrivedByRelay fromTcp cid := arrivedByRelay_reply _ _ _ _ _ _ _
  have hrec := answerRequest_received (s := s) cid fromTcp huc
  have hmem : p ∈ (s.answerRequest m cid fromTcp).checkList := by
    rw [show (s.answerRequest m cid fromTcp).checkList = s.checkList from
      congrArg Core.checkList hcore]
    exact List.mem_of_getElem? hpi
  rw [hrelay] at hrec
  refine Path.after (Path.visible (.nominateNow _ p _ _ cid _ ?_ hmem hps he ht hrec) trivial)
    (answerRequest_steps m cid fromTcp trivial)
  exact (congrArg Core.controlling hcore).trans hc

theorem handleBindingRequest_nominates (h : s.nominatesNow env m cid fromTcp p relay) :
    LeadsToNomination env s fun ep t =>
      s.handleBindingRequest env m cid fromTcp = t.maybeTriggerCheckFromPeer env ep := by
  obtain ⟨-, hp, -, ⟨hr, hc⟩ | ⟨hg, hc, hnf⟩⟩ := h
  · rw [handleBindingRequest, if_neg (by simp [hr])]
    exact acceptRequest_nominates hc hp
  · rw [handleBindingRequest, if_pos hg.1]
    rcases handleRoleConflict_eq env s m hg.1 with ⟨-, he⟩ | ⟨hn, -⟩
    · rcases flipRole_eq env s with ⟨hf, -⟩ | ⟨-, hflip⟩
      · exact absurd hf hnf
      · rw [he, hflip]
        let r : Session := { s with controlling := !s.controlling }
        have hr : r.controlling = false := by simp [r, hc]
        obtain ⟨v, origin, ep, relay, c, tx, hleads, hpath, heq⟩ :=
          acceptRequest_nominates (s := r) hr hp
        exact ⟨v, origin, ep, relay, c, tx, ⟨hleads.cfg, hleads.localUfrag, hleads.links,
          hleads.unpublished, hleads.draws⟩, hpath.after (.visible (.flip s) trivial), heq⟩
    · exact absurd hg hn

/-- Whatever a message that nominates does after the nomination is a triggered check. -/
theorem onStun_nominates (h : s.nominatesOn env m cid fromTcp) :
    LeadsToNomination env s fun _ t =>
      Steps env { l | ∃ stale strays full, l = .trigger stale strays full } t
        (s.onStun env m cid fromTcp) := by
  have hresponse (hans : s.answersCheck m) :
      s.onStun env m cid fromTcp = s.handleCheckResponse env m := by
    obtain ⟨hm, hpm, hs⟩ := hans
    rw [onStun, if_neg (by rw [hm]; decide), if_pos hm, handleSuccessResponse, if_neg hpm,
      if_neg (by simp [hs])]
  rcases h with ⟨p, hp⟩ | ⟨p, hp⟩ | ⟨p, relay, hp⟩
  · rw [hresponse hp.1]
    obtain ⟨v, origin, ep, relay, c, tx, hleads, hpath, he⟩ :=
      handleCheckResponse_nominates (.inl ⟨p, hp⟩)
    exact ⟨v, origin, ep, relay, c, tx, hleads, hpath, .of_eq he.symm⟩
  · rw [hresponse hp.1]
    obtain ⟨v, origin, ep, relay, c, tx, hleads, hpath, he⟩ :=
      handleCheckResponse_nominates (.inr ⟨p, hp⟩)
    exact ⟨v, origin, ep, relay, c, tx, hleads, hpath, .of_eq he.symm⟩
  · have hm := hp.1
    rw [onStun, if_neg (by rw [hm]; decide), if_neg (by rw [hm]; decide), if_pos hm]
    obtain ⟨v, origin, ep, relay, c, tx, hleads, hpath, he⟩ := handleBindingRequest_nominates hp
    rw [he]
    exact ⟨v, origin, ep, relay, c, tx, hleads, hpath,
      maybeTriggerCheckFromPeer_steps _ fun stale strays full _ _ _ => ⟨stale, strays, full, rfl⟩⟩

end Session

end LinkIce
