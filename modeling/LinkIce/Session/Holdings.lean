import LinkIce.Session.Step

/-! What a session holds on the side: parked application data, its port mapping, the path-MTU
search and the candidate types it reports. Few functions write it; all others retain it. -/
namespace LinkIce
open Stun

def Task.isMtuTimer : Task → Bool
  | pmtuTimeout _ => true
  | _ => false

/-- Application data on its way out, and the nominations that release it. -/
structure Mail where
  pending : List Bytes
  handed : List Bytes
  nominations : List Effect

structure Mapper where
  present : Bool
  mapping : Option PortMapping
  calls : List PortmapCall

structure MtuSearch where
  cfg : IceConfig
  hasCarrier : Bool
  hasTimer : Bool
  probe : Option PathMtuProbe
  inflight : Option TransactionId
  gen : ℕ
  effective : ℕ
  trials : List MtuTrial
  timers : List Task

structure Holdings where
  mail : Mail
  mapper : Mapper
  search : MtuSearch
  types : CandidateType × CandidateType

namespace Session

def mail (s : Session) : Mail where
  pending := s.pendingAppData
  handed := s.handedData
  nominations := s.log.filter Effect.isNomination

def mapper (s : Session) : Mapper where
  present := s.hasPortmap
  mapping := s.portmapMapping
  calls := s.portmapCalls

def search (s : Session) : MtuSearch where
  cfg := s.cfg
  hasCarrier := s.hasCarrier
  hasTimer := s.hasTimer
  probe := s.pmtuProbe
  inflight := s.pmtuInflight
  gen := s.pmtuProbeGen
  effective := s.effectiveMtu
  trials := s.mtuTrials
  timers := s.queue.filter Task.isMtuTimer

def types (s : Session) : CandidateType × CandidateType :=
  (s.nominatedLocalType, s.nominatedRemoteType)

def holdings (s : Session) : Holdings := ⟨s.mail, s.mapper, s.search, s.types⟩

def Retains (s t : Session) : Prop := t.holdings = s.holdings

namespace Retains

variable {s t u : Session}

theorem refl (s : Session) : Retains s s := rfl

theorem trans (hst : Retains s t) (htu : Retains t u) : Retains s u := Eq.trans htu hst

theorem after (htu : Retains t u) (hst : Retains s t) : Retains s u := hst.trans htu

theorem mail (h : Retains s t) : t.mail = s.mail := congrArg Holdings.mail h

theorem mapper (h : Retains s t) : t.mapper = s.mapper := congrArg Holdings.mapper h

theorem search (h : Retains s t) : t.search = s.search := congrArg Holdings.search h

theorem types (h : Retains s t) : t.types = s.types := congrArg Holdings.types h

theorem foldl {α : Type*} {f : Session → α → Session} (hf : ∀ s a, Retains s (f s a))
    (as : List α) (s : Session) : Retains s (as.foldl f s) := by
  induction as generalizing s with
  | nil => exact refl s
  | cons a as ih => exact (hf s a).trans (ih (f s a))

end Retains

variable (env : Env) (s : Session) {k : Task} {ep : Endpoint} {bytes ufrag pwd raw : Bytes} {i : ℕ}
  {p : CheckPair} {c : Candidate} {cfg : TurnConfig} {m : StunMessage} {b : StunBuilder} {cid : Cid}
  {backup fromTcp : Bool} {cands : List Candidate}

theorem emit_retains {e : Effect} (h : e.isNomination = false) : Retains s (s.emit e) := by
  simp only [Retains, holdings, mail, mapper, search, types, emit, List.filter_cons, h,
    Bool.false_eq_true, if_false]

/-! ### Connections and application data -/

theorem ensureRemoteCid_retains : Retains s (s.ensureRemoteCid env ep).2 := by
  unfold ensureRemoteCid
  split_ifs
  · rfl
  · split
    · rfl
    · dsimp only
      split_ifs <;> rfl

theorem relayCidForEndpoint_retains (ep : Endpoint) : Retains s (s.relayCidForEndpoint ep).2 := by
  unfold relayCidForEndpoint
  split <;> rfl

theorem ensureRemoteTcpCid_retains : Retains s (s.ensureRemoteTcpCid env ep).2 := by
  unfold ensureRemoteTcpCid
  split_ifs
  · rfl
  · dsimp only
    split_ifs <;> rfl

theorem carrierSend_retains (tcp : Bool) (cid : Cid) (p : Payload) :
    Retains s (s.carrierSend tcp cid p) := by
  unfold carrierSend
  split_ifs <;> rfl

theorem drainReorder_retains {fuel : ℕ} : Retains s (s.drainReorder fuel) := by
  induction fuel generalizing s with
  | zero => rfl
  | succ fuel ih =>
    simp only [drainReorder]
    split
    · rfl
    · exact (ih _).after rfl

theorem deliverInOrder_retains : Retains s (s.deliverInOrder raw) := by
  unfold deliverInOrder
  dsimp only
  split_ifs
  · rfl
  · rfl
  · exact (drainReorder_retains _).after rfl
  · rfl
  · rfl

theorem deliver_retains : Retains s (s.deliver raw) := by
  unfold deliver
  split_ifs
  exacts [deliverInOrder_retains s, rfl]

theorem nominatedRoute_retains : Retains s (s.nominatedRoute env).2 := by
  unfold nominatedRoute
  split_ifs
  exacts [ensureRemoteCid_retains env s, rfl]

theorem numberFrame_retains (buf : Bytes) : Retains s (s.numberFrame buf).2 := by
  unfold numberFrame
  split_ifs <;> rfl

theorem sendOnStrand_retains (buf : Bytes) : Retains s (s.sendOnStrand env buf) := by
  unfold sendOnStrand
  dsimp only
  refine (numberFrame_retains s buf).trans ?_
  generalize (s.numberFrame buf).2 = t
  have hroute := nominatedRoute_retains env t
  split_ifs
  · rfl
  · exact hroute
  · exact (carrierSend_retains _ _ _ _).after hroute

/-! ### TURN -/

theorem turnOutput_retains (c : TurnClient) (o : TurnOutput) :
    Retains s (s.turnOutput env c o) := by
  cases o with
  | toServer b => rfl
  | allocated relay =>
    unfold turnOutput
    dsimp only
    split_ifs <;> rfl
  | data peer payload =>
    unfold turnOutput
    dsimp only
    split_ifs
    exacts [rfl, rfl, deliver_retains s]

theorem turnOutputs_retains {c : TurnClient} {outs : List TurnOutput} :
    Retains s (s.turnOutputs env c outs) :=
  .foldl (fun s o => turnOutput_retains env s c o) outs s

theorem turnCreatePermission_retains (ip : Bytes) : Retains s (s.turnCreatePermission env ip) := by
  unfold turnCreatePermission
  split
  · rfl
  · exact (turnOutputs_retains env _).after rfl

theorem turnBindChannel_retains (ep : Endpoint) : Retains s (s.turnBindChannel env ep) := by
  unfold turnBindChannel
  split
  · rfl
  · exact (turnOutputs_retains env _).after rfl

theorem turnClose_retains : Retains s (s.turnClose env) := by
  unfold turnClose
  split
  · rfl
  · exact (turnOutputs_retains env _).after rfl

theorem turnBackupProbeClose_retains : Retains s (s.turnBackupProbeClose env) := by
  unfold turnBackupProbeClose
  split
  · rfl
  · exact (turnOutputs_retains env _).after rfl

theorem turnOnInbound_retains : Retains s (s.turnOnInbound env bytes) := by
  unfold turnOnInbound
  split
  · rfl
  · exact (turnOutputs_retains env _).after rfl

theorem turnBackupOnInbound_retains : Retains s (s.turnBackupOnInbound env bytes) := by
  unfold turnBackupOnInbound
  split
  · rfl
  · exact (turnOutputs_retains env _).after rfl

theorem dropTurn_retains : Retains s (s.dropTurn env) := turnClose_retains env s

theorem dropTurnBackupProbe_retains : Retains s (s.dropTurnBackupProbe env) :=
  turnBackupProbeClose_retains env s

/-! ### Checks -/

theorem buildCheckList_retains : Retains s (s.buildCheckList env) := by
  obtain ⟨mu, draws, ps, h⟩ := buildCheckList_eq
  rw [h]
  rfl

theorem failPair_retains : Retains s (s.failPair i) := by
  unfold failPair
  split <;> rfl

theorem transmit_retains : Retains s (s.transmit env p b) := by
  unfold transmit
  dsimp only
  split_ifs
  · rfl
  · exact ensureRemoteTcpCid_retains env s
  · exact (carrierSend_retains _ _ _ _).after (ensureRemoteTcpCid_retains env s)
  · have hrelay := relayCidForEndpoint_retains s (p.endpoint env.net)
    generalize (s.relayCidForEndpoint (p.endpoint env.net)).2 = t at hrelay ⊢
    exact Retains.after rfl hrelay
  · exact ensureRemoteCid_retains env s
  · exact (carrierSend_retains _ _ _ _).after (ensureRemoteCid_retains env s)

theorem sendCheck_retains : Retains s (s.sendCheck env i) := by
  unfold sendCheck
  split
  · rfl
  · split_ifs
    · exact failPair_retains s
    · exact (transmit_retains env _).after rfl

theorem startCheck_retains (i : ℕ) : Retains s (s.startCheck env i) :=
  (sendCheck_retains env _).after rfl

theorem pickNominee_retains : Retains s (s.pickNominee env) := by
  unfold pickNominee
  split
  · rfl
  · exact (sendCheck_retains env _).after rfl

theorem retransmitPair_retains (now i : ℕ) : Retains s (s.retransmitPair env now i) := by
  unfold retransmitPair
  split
  · rfl
  · split_ifs
    exacts [rfl, rfl, failPair_retains s, rfl, sendCheck_retains env s]

theorem retransmitAll_retains (now : ℕ) (is : List ℕ) : Retains s (s.retransmitAll env now is) :=
  .foldl (fun s i => retransmitPair_retains env s now i) is s

theorem promoteWaiting_retains (is : List ℕ) : Retains s (s.promoteWaiting env is) := by
  induction is generalizing s with
  | nil => rfl
  | cons i is ih =>
    simp only [promoteWaiting]
    split_ifs
    · rfl
    · split
      · rfl
      · split_ifs
        exacts [(ih _).after (startCheck_retains env s i), ih s]

theorem armCheckTimer_retains : Retains s s.armCheckTimer := by
  unfold armCheckTimer
  split_ifs <;> rfl

theorem checksExhausted_retains : Retains s s.checksExhausted := by
  unfold checksExhausted
  split_ifs
  · rfl
  · unfold armNominationWait
    dsimp only
    split_ifs <;> rfl
  · rfl

theorem checkPasses_retains : Retains s (s.checkPasses env).2 := by
  unfold checkPasses
  dsimp only
  refine (promoteWaiting_retains env _ _).after ?_
  exact (retransmitAll_retains env _ _ _).after rfl

theorem runNextCheck_retains : Retains s (s.runNextCheck env) := by
  unfold runNextCheck
  dsimp only
  split_ifs
  · rfl
  · exact (armCheckTimer_retains _).after (checkPasses_retains env s)
  · exact (checksExhausted_retains _).after (checkPasses_retains env s)

theorem preFire_retains (is : List ℕ) (v4 v6 : Bool) : Retains s (s.preFire env is v4 v6) := by
  induction is generalizing s v4 v6 with
  | nil => rfl
  | cons i is ih =>
    simp only [preFire]
    split_ifs
    · rfl
    · split
      · rfl
      · split_ifs
        · exact ih s v4 v6
        · exact (ih _ _ _).after (startCheck_retains env s i)
        · exact (ih _ _ _).after (startCheck_retains env s i)
        · exact ih s v4 v6

theorem beginChecks_retains : Retains s (s.beginChecks env) := by
  unfold beginChecks
  split_ifs
  · rfl
  · exact (runNextCheck_retains env _).after (preFire_retains env s _ _ _)

theorem recheck_retains : Retains s (s.recheck env) := by
  have hbuild := buildCheckList_retains env s
  unfold recheck
  generalize s.buildCheckList env = t at hbuild ⊢
  exact (runNextCheck_retains env _).after (Retains.after rfl hbuild)

theorem startChecking_retains : Retains s (s.startChecking env) :=
  (beginChecks_retains env _).after ((buildCheckList_retains env _).after rfl)

theorem flipRole_retains : Retains s (s.flipRole env) := by
  unfold flipRole
  dsimp only
  split_ifs
  exacts [(recheck_retains env _).after rfl, rfl]

theorem handleRoleConflict_retains (controlling : Bool) (tiebreaker : ℕ) :
    Retains s (s.handleRoleConflict env controlling tiebreaker).2 := by
  unfold handleRoleConflict
  split_ifs
  exacts [rfl, rfl, flipRole_retains env s]

theorem onNominationWaitExpired_retains : Retains s s.onNominationWaitExpired := by
  unfold onNominationWaitExpired
  split_ifs <;> rfl

theorem onTcpConnectTimeout_retains : Retains s (s.onTcpConnectTimeout env cid) := by
  unfold onTcpConnectTimeout
  split
  · rfl
  · split_ifs
    · rfl
    · refine Retains.after (.foldl (fun s i => ?_) _ _) rfl
      unfold failTimedOutPair
      split
      · rfl
      · split_ifs
        exacts [failPair_retains s, rfl]

/-! ### Gathering -/

theorem pushLocal_retains (c : Candidate) : Retains s (s.pushLocal c) := rfl

theorem pushAllowed_retains {type : CandidateType} : Retains s (s.pushAllowed c type) := by
  unfold pushAllowed
  split_ifs
  exacts [pushLocal_retains s c, rfl]

theorem bindCarrier_retains : Retains s (s.bindCarrier env) := by
  unfold bindCarrier
  split_ifs <;> rfl

theorem gatherInterface_retains (i : Interface) : Retains s (s.gatherInterface i) := by
  unfold gatherInterface
  split
  · rfl
  · split
    · exact pushAllowed_retains s
    · split
      exacts [rfl, pushAllowed_retains s]
    · rfl

theorem gatherTcpHostCandidates_retains : Retains s s.gatherTcpHostCandidates := by
  unfold gatherTcpHostCandidates
  split_ifs <;> rfl

theorem gatherHostCandidates_retains : Retains s (s.gatherHostCandidates env) := by
  unfold gatherHostCandidates
  refine (bindCarrier_retains env s).trans ?_
  generalize s.bindCarrier env = t
  dsimp only
  split_ifs
  · rfl
  · exact (pushAllowed_retains _).after rfl
  · split
    · rfl
    · refine (gatherTcpHostCandidates_retains _).after ?_
      exact Retains.after (.foldl gatherInterface_retains _ _) rfl

theorem onGatheringComplete_retains : Retains s (s.onGatheringComplete env) := by
  unfold onGatheringComplete
  extract_lets u v
  have hv : Retains u v := by
    dsimp only [v]
    split
    · split
      exacts [startChecking_retains env u, rfl]
    · rfl
  exact Retains.after rfl (hv.after rfl)

theorem onTurnSettled_retains : Retains s (s.onTurnSettled env) := by
  unfold onTurnSettled
  dsimp only
  split_ifs
  exacts [(onGatheringComplete_retains env _).after rfl, rfl]

theorem buildTurnClient_retains : Retains s (s.buildTurnClient env cfg backup).2 := by
  unfold buildTurnClient
  dsimp only
  split
  · rfl
  · split
    exacts [rfl, ensureRemoteCid_retains env s]

theorem armTurnAllocateTimer_retains : Retains s s.armTurnAllocateTimer := by
  unfold armTurnAllocateTimer
  split_ifs <;> rfl

theorem attemptTurn_retains : Retains s (s.attemptTurn env cfg) := by
  unfold attemptTurn
  extract_lets cfg' r
  have hr : Retains s r.2 := buildTurnClient_retains env s
  clear_value r
  split_ifs
  · rfl
  · split
    · exact Retains.after rfl hr
    · refine (armTurnAllocateTimer_retains _).after ((turnOutputs_retains env _).after ?_)
      exact Retains.after rfl hr

theorem tryNextTurnAttempt_retains : Retains s (s.tryNextTurnAttempt env) := by
  unfold tryNextTurnAttempt
  extract_lets u
  have hu : Retains s u := (dropTurn_retains env _).after rfl
  clear_value u
  split
  · exact (onTurnSettled_retains env u).after hu
  · exact (attemptTurn_retains env u).after hu

theorem gatherRelay_retains : Retains s (s.gatherRelay env) := by
  unfold gatherRelay
  split
  · rfl
  · extract_lets u
    have hu : Retains s u := by
      dsimp only [u]
      split <;> rfl
    clear_value u
    split
    · exact hu
    · exact (tryNextTurnAttempt_retains env _).after (Retains.after rfl hu)

theorem routeTo_retains (tcp : Bool) (ep : Endpoint) : Retains s (s.routeTo env tcp ep).2 := by
  unfold routeTo
  split_ifs
  exacts [ensureRemoteTcpCid_retains env s, ensureRemoteCid_retains env s]

theorem probeServer_retains (tcp : Bool) (server : Endpoint) :
    Retains s (s.probeServer env tcp server) := by
  unfold probeServer
  have hr := routeTo_retains env s tcp server
  generalize s.routeTo env tcp server = r at hr ⊢
  dsimp only
  split_ifs
  · exact hr
  · exact (carrierSend_retains _ _ _ _).after (Retains.after rfl hr)

theorem probeServers_retains (tcp : Bool) : Retains s (s.probeServers env tcp) :=
  .foldl (fun s server => probeServer_retains env s tcp server) _ s

theorem armGatherTimer_retains : Retains s s.armGatherTimer := by
  unfold armGatherTimer
  split_ifs <;> rfl

theorem startMultiStunProbes_retains : Retains s (s.startMultiStunProbes env) := by
  unfold startMultiStunProbes
  extract_lets u
  have hu : Retains s u := (probeServers_retains env _ _).after rfl
  clear_value u
  split_ifs
  exacts [(onGatheringComplete_retains env u).after hu, (armGatherTimer_retains u).after hu]

theorem stunProbes_retains : Retains s (s.stunProbes env) := by
  refine (startMultiStunProbes_retains env s).trans ?_
  unfold stunProbes gatherTcpServerReflexive
  split_ifs
  exacts [rfl, probeServers_retains env _ _]

theorem onGatherTimeout_retains : Retains s (s.onGatherTimeout env) :=
  (onGatheringComplete_retains env _).after rfl

theorem observeSrflxPort_retains {port : ℕ} : Retains s (s.observeSrflxPort port) := by
  unfold observeSrflxPort
  split_ifs
  · rfl
  · split
    · rfl
    · split_ifs <;> rfl

theorem onFirstSrflx_retains : Retains s (s.onFirstSrflx env) := by
  unfold onFirstSrflx
  split_ifs
  · rfl
  · unfold armGatherFallback
    dsimp only
    split_ifs
    exacts [rfl, rfl, (onGatheringComplete_retains env _).after rfl]

theorem handleGatherResponse_retains {tx : TransportType} :
    Retains s (s.handleGatherResponse env m tx) := by
  unfold handleGatherResponse
  split
  · rfl
  · split
    · rfl
    · extract_lets c u known v
      have hu : Retains s u := (observeSrflxPort_retains _).after rfl
      have hv : Retains u v := by
        dsimp only [v]
        split_ifs
        exacts [rfl, pushAllowed_retains u]
      clear_value u v
      exact (hu.trans hv).trans (onFirstSrflx_retains env v)

theorem armTurnBackups_retains : Retains s s.armTurnBackups := by
  unfold armTurnBackups armTurnBackupTimer
  dsimp only
  split_ifs <;> rfl

theorem foldRelayIntoChecks_retains : Retains s (s.foldRelayIntoChecks env) := by
  unfold foldRelayIntoChecks
  split_ifs
  · have hcheck := recheck_retains env s
    dsimp only
    generalize s.recheck env = t at hcheck ⊢
    split_ifs
    exacts [hcheck, Retains.after rfl hcheck]
  · rfl

theorem onTurnAllocated_retains : Retains s (s.onTurnAllocated env c) := by
  unfold onTurnAllocated
  dsimp only
  split_ifs
  · rfl
  · refine (foldRelayIntoChecks_retains env _).after ((onTurnSettled_retains env _).after
      ((armTurnBackups_retains _).after ?_))
    exact Retains.after (.foldl (fun s r => turnCreatePermission_retains env s _) _ _) rfl

theorem onTurnAllocateTimeout_retains : Retains s (s.onTurnAllocateTimeout env) := by
  unfold onTurnAllocateTimeout
  split_ifs
  exacts [rfl, (tryNextTurnAttempt_retains env _).after rfl]

theorem armTurnBackupTimer_retains : Retains s s.armTurnBackupTimer := by
  unfold armTurnBackupTimer
  split_ifs <;> rfl

theorem probeTurnBackup_retains : Retains s (s.probeTurnBackup env) := by
  unfold probeTurnBackup
  extract_lets idx u
  have hu : Retains s u := (armTurnBackupTimer_retains _).after rfl
  clear_value u
  split
  · exact hu
  · rename_i cfg _
    extract_lets r
    have hr : Retains s r.2 := (buildTurnClient_retains env u).after hu
    clear_value r
    split
    · exact Retains.after rfl hr
    · exact (turnOutputs_retains env _).after (Retains.after rfl hr)

theorem onTurnBackupTick_retains : Retains s (s.onTurnBackupTick env) := by
  unfold onTurnBackupTick
  split_ifs
  · rfl
  · exact (probeTurnBackup_retains env _).after (dropTurnBackupProbe_retains env s)

theorem recheckAfterFailover_retains : Retains s (s.recheckAfterFailover env) := by
  unfold recheckAfterFailover
  split_ifs
  exacts [recheck_retains env s, (recheck_retains env _).after rfl, rfl]

theorem promoteTurnBackup_retains {client : TurnClient} :
    Retains s (s.promoteTurnBackup env client cfg) := by
  unfold promoteTurnBackup
  extract_lets u v c
  have hu : Retains s u := (turnClose_retains env _).after rfl
  have hv : Retains u v := rfl
  clear_value u v
  refine (recheckAfterFailover_retains env _).after ((pushAllowed_retains _).after ?_)
  exact Retains.after rfl (hu.trans hv)

theorem onBackupAllocated_retains : Retains s (s.onBackupAllocated env cfg) := by
  unfold onBackupAllocated
  split
  · rfl
  · extract_lets since u
    have hu : Retains s u := rfl
    clear_value u
    split
    · exact (dropTurnBackupProbe_retains env u).after hu
    · exact (promoteTurnBackup_retains env _).after (Retains.after rfl hu)

theorem unregisterMdns_retains : Retains s s.unregisterMdns := by
  unfold unregisterMdns
  split_ifs <;> rfl

theorem restartTimers_retains : Retains s (s.restartTimers env) := by
  have hdrop : Retains s ((s.cancelTimers.dropTurn env).dropTurnBackupProbe env) :=
    (dropTurnBackupProbe_retains env _).after ((dropTurn_retains env _).after rfl)
  unfold restartTimers
  generalize (s.cancelTimers.dropTurn env).dropTurnBackupProbe env = t at hdrop ⊢
  exact Retains.after rfl hdrop

theorem reset_retains : Retains s (s.reset env) := by
  have htimers : Retains s ((s.emit .restarted).restartTimers env) :=
    (restartTimers_retains env _).after rfl
  unfold reset
  generalize (s.emit .restarted).restartTimers env = t at htimers ⊢
  refine htimers.trans ?_
  have hfresh : Retains t (t.freshCredentials env) := rfl
  generalize t.freshCredentials env = u at hfresh ⊢
  have hmdns := unregisterMdns_retains u
  unfold wipeForRestart
  generalize u.unregisterMdns = v at hmdns ⊢
  exact hfresh.trans (Retains.after rfl hmdns)

/-! ### Signalling -/

theorem mergeRemote_retains : Retains s (s.mergeRemote env c) := by
  unfold mergeRemote
  split
  · rfl
  · extract_lets u
    have hu : Retains s u := by
      dsimp only [u]
      split
      exacts [turnCreatePermission_retains env s _, rfl]
    clear_value u
    exact Retains.after rfl hu

theorem onEndOfCandidates_retains : Retains s (s.onEndOfCandidates env) := by
  unfold onEndOfCandidates
  dsimp only
  split_ifs
  exacts [(pickNominee_retains env _).after rfl, rfl]

theorem resolveRemoteMdnsCandidates_retains : Retains s s.resolveRemoteMdnsCandidates := by
  unfold resolveRemoteMdnsCandidates
  split_ifs
  · rfl
  · refine .foldl (fun s a => ?_) _ _
    dsimp only
    split_ifs <;> rfl

theorem publishAnswer_retains : Retains s s.publishAnswer := by
  unfold publishAnswer
  split_ifs <;> rfl

theorem onRemoteCandidates_retains : Retains s (s.onRemoteCandidates env) := by
  unfold onRemoteCandidates
  split_ifs
  · rfl
  · rfl
  · exact (startChecking_retains env _).after (publishAnswer_retains s)
  · exact (resolveRemoteMdnsCandidates_retains _).after (recheck_retains env s)
  · exact resolveRemoteMdnsCandidates_retains s

theorem adoptRemoteCredentials_retains : Retains s (s.adoptRemoteCredentials ufrag pwd) := by
  unfold adoptRemoteCredentials
  dsimp only
  split_ifs <;> rfl

theorem addRemoteCandidates_retains {eoc : Bool} :
    Retains s (s.addRemoteCandidates env ufrag pwd cands eoc) := by
  unfold addRemoteCandidates
  extract_lets u v
  have hu : Retains s u := adoptRemoteCredentials_retains s
  have hv : Retains u v := by
    dsimp only [v]
    split
    exacts [onEndOfCandidates_retains env u, rfl]
  clear_value u v
  refine (hu.trans hv).trans ((onRemoteCandidates_retains env _).after ?_)
  exact .foldl (mergeRemote_retains env) cands v

theorem setRemote_retains : Retains s (s.setRemote env ufrag pwd cands) := by
  unfold setRemote
  extract_lets u v
  have hu : Retains s u := rfl
  have hv : Retains u v := by
    dsimp only [v]
    split
    exacts [startChecking_retains env u, rfl]
  clear_value u v
  exact (resolveRemoteMdnsCandidates_retains v).after (hu.trans hv)

theorem setPeerSignalFlags_retains {symmetric : Bool} :
    Retains s (s.setPeerSignalFlags env symmetric) := by
  unfold setPeerSignalFlags
  dsimp only
  split_ifs
  exacts [(recheck_retains env _).after rfl, rfl]

theorem checkResolved_retains : Retains s (s.checkResolved env) := by
  unfold checkResolved
  split_ifs
  exacts [rfl, startChecking_retains env s, recheck_retains env s, rfl]

theorem onMdnsResolved_retains {idx : ℕ} {hostname : Bytes} {r : MdnsResolveResult} :
    Retains s (s.onMdnsResolved env idx hostname r) := by
  unfold onMdnsResolved
  split
  · rfl
  · split
    · rfl
    · split_ifs
      exacts [rfl, rfl, (checkResolved_retains env _).after rfl]

/-! ### Inbound messages -/

theorem learnPrflx_retains : Retains s (s.learnPrflx env m p) := by
  unfold learnPrflx
  split
  · rfl
  · split_ifs
    exacts [pushLocal_retains s _, rfl]

theorem recordSuccess_retains : Retains (s.noteCandidateTypes p) (s.recordSuccess env m i p) := by
  have hrtt : Retains (s.noteCandidateTypes p) ((s.sampleRtt env p).noteCandidateTypes p) := by
    unfold sampleRtt
    split_ifs <;> rfl
  have hnote : Retains (s.noteCandidateTypes p) (s.noteResponse env m p) :=
    (learnPrflx_retains env _).after hrtt
  unfold recordSuccess
  generalize s.noteResponse env m p = t at hnote ⊢
  exact Retains.after rfl hnote

theorem nomineeCid_retains (p : CheckPair) : Retains s (s.nomineeCid env p).2 := by
  unfold nomineeCid
  dsimp only
  split_ifs
  · exact ensureRemoteTcpCid_retains env s
  · exact relayCidForEndpoint_retains s _
  · exact ensureRemoteCid_retains env s

theorem reply_retains : Retains s (s.reply fromTcp cid ep b) := by
  unfold reply
  split_ifs
  exacts [carrierSend_retains s _ _ _, rfl, rfl, carrierSend_retains s _ _ _]

theorem maybeTriggerCheckFromPeer_retains : Retains s (s.maybeTriggerCheckFromPeer env ep) := by
  unfold maybeTriggerCheckFromPeer
  split
  · rfl
  · split
    · rfl
    · dsimp only
      split
      · rfl
      · unfold pushTriggered
        dsimp only
        split_ifs
        exacts [(sendCheck_retains env _).after rfl, rfl]

theorem answerRequest_retains (m : StunMessage) (cid : Cid) (fromTcp : Bool) :
    Retains s (s.answerRequest m cid fromTcp) := (reply_retains _).after rfl

theorem handleErrorResponse_retains : Retains s (s.handleErrorResponse env m) := by
  unfold handleErrorResponse
  split_ifs
  · exact flipRole_retains env s
  · split
    exacts [rfl, failPair_retains s]

theorem onAppData_retains {data : Bytes} : Retains s (s.onAppData fromTcp data) := by
  unfold onAppData
  split_ifs
  exacts [rfl, deliverInOrder_retains s, rfl]

theorem turnStream_retains : Retains s (s.turnStream env backup bytes) := by
  unfold turnStream
  split_ifs
  exacts [turnBackupOnInbound_retains env s, rfl, turnOnInbound_retains env s, rfl]

theorem dequeue_retains (h : k.isMtuTimer = false) : Retains s (s.dequeue k) := by
  have hfilter : (s.queue.erase k).filter Task.isMtuTimer = s.queue.filter Task.isMtuTimer := by
    rw [← List.erase_filter]
    exact List.erase_of_not_mem fun hk => by simp [h] at hk
  simp only [Retains, holdings, mail, mapper, search, types, dequeue, hfilter]

/-! ### Keepalives -/

theorem sendKeepalive_retains : Retains s (s.sendKeepalive env) := by
  unfold sendKeepalive
  split_ifs
  · rfl
  · exact (carrierSend_retains _ _ _ _).after rfl

theorem noteKeepalive_retains : Retains s (s.noteKeepalive env) := by
  unfold noteKeepalive
  split_ifs <;> rfl

theorem armKeepaliveTimer_retains : Retains s s.armKeepaliveTimer := by
  unfold armKeepaliveTimer
  split_ifs <;> rfl

end Session

end LinkIce
