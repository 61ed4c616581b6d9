import LinkIce.Session.LinkPaths
import LinkIce.Session.Script

/-! Which operations lock `local_state_mu_` while they hold it: exactly those that build
the check list. -/
namespace LinkIce
open Stun

namespace Session

variable {H : Hmac} {env : Env} {A : Set Label} {s t : Session} {l : Option Label} {m : StunMessage}
  {cid : Cid} {tx : TransportType} {cfg : TurnConfig} {cands : List Candidate} {fromTcp : Bool}

/-! ### Everything but a rebuild balances its locks -/

theorem sendCheck_mu {i : ℕ} : (s.sendCheck env i).mu = s.mu := by
  obtain ⟨ps, rs, h⟩ := sendCheck_keeps env s
  exact h.mu

theorem pickNominee_mu : (s.pickNominee env).mu = s.mu := by
  obtain ⟨sel, ps, rs, h⟩ := pickNominee_keeps env s
  exact h.mu

theorem restartTimers_mu (env : Env) (s : Session) : (s.restartTimers env).mu = s.mu :=
  ((dropTurn_works env s.cancelTimers).trans (dropTurnBackupProbe_quiet env _).toWorks).mu

theorem wipeForRestart_mu (s : Session) : s.wipeForRestart.mu = s.mu := (unregisterMdns_quiet s).mu

theorem reset_mu (env : Env) (s : Session) : (s.reset env).mu = s.mu.lock.unlock := by
  have h := restartTimers_mu env (s.emit .restarted)
  change (((s.emit .restarted).restartTimers env).freshCredentials env).wipeForRestart.mu = _
  rw [wipeForRestart_mu]
  exact congrArg (fun m : Mutex => m.lock.unlock) h

theorem buildCheckList_mu : (s.buildCheckList env).mu = .deadlocked :=
  Mutex.unlock_unlock_lock_lock s.mu

theorem act_mu_eq (h : Act env s l t) (hl : l ≠ some .rebuild) :
    t.mu = s.mu ∨ t.mu = s.mu.lock.unlock := by
  cases h with
  | quiet h | work h | release h | deliver h | turnInput h => exact .inl h.mu
  | hosts | srflx | prflx | relay | takeover => exact .inr rfl
  | startChecking | rebuild => exact absurd rfl hl
  | check i | liteCheck i => exact .inl sendCheck_mu
  | pick => exact .inl pickNominee_mu
  | respond | reject => exact .inl (reply_keeps).mu
  | restart => exact .inr (reset_mu env s)
  | autoRestart now => exact .inr (reset_mu env _)
  | _ => exact .inl rfl

theorem act_deadlocked (h : Act env s l t) (hs : s.mu = .deadlocked) : t.mu = .deadlocked := by
  by_cases hl : l = some .rebuild
  · subst hl
    cases h with
    | startChecking => exact hs
    | rebuild => exact buildCheckList_mu
  · rcases act_mu_eq h hl with h | h
    all_goals rw [h, hs]
    rfl

theorem steps_mu_free (h : Steps env A s t) (hA : .rebuild ∉ A) (hs : s.mu = .free) :
    t.mu = .free := by
  refine h.invariant (I := fun u => u.mu = .free) (fun {u v l} ha hstep hu => ?_) hs
  have hl : l ≠ some .rebuild := by
    rintro rfl
    exact hA (ha _ rfl)
  rcases act_mu_eq hstep hl with h | h
  all_goals rw [h, hu]
  rfl

/-! ### A rebuild that is due happens -/

def Rebuilt (env : Env) (t : Session) : Prop :=
  ∃ u : Session, Steps env Set.univ (u.buildCheckList env) t

theorem Rebuilt.deadlocked (h : Rebuilt env t) : t.mu = .deadlocked := by
  obtain ⟨u, hu⟩ := h
  exact hu.invariant (I := fun u => u.mu = .deadlocked) (fun _ => act_deadlocked)
    buildCheckList_mu

theorem Rebuilt.trans (h : Rebuilt env s) (hst : Steps env Set.univ s t) : Rebuilt env t := by
  obtain ⟨u, hu⟩ := h
  exact ⟨u, hu.trans hst⟩

theorem recheck_rebuilt : Rebuilt env (s.recheck env) :=
  ⟨s, Path.trans (steps_quiet (.silent rfl le_rfl))
    (runNextCheck_steps (fun _ _ => Set.mem_univ _) fun _ _ => Set.mem_univ _)⟩

theorem startChecking_rebuilt : Rebuilt env (s.startChecking env) :=
  ⟨_, beginChecks_steps (buildCheckList_idle env _) fun _ _ => Set.mem_univ _⟩

theorem onGatheringComplete_rebuilt (h : s.readyToCheck) :
    Rebuilt env (s.onGatheringComplete env) := by
  unfold onGatheringComplete
  dsimp only
  rw [if_pos h.1, if_pos h.2]
  exact startChecking_rebuilt.trans (Path.visible (.publish _) trivial)

theorem onTurnSettled_rebuilt (hs : s.stunSettled = true) (h : s.readyToCheck) :
    Rebuilt env (s.onTurnSettled env) := by
  unfold onTurnSettled
  exact (if_pos hs : (if s.stunSettled = true then _ else _) = _) ▸ onGatheringComplete_rebuilt h

theorem tryNextTurnAttempt_rebuilt (h : s.turnExhausted s.turnAttemptIdx) :
    Rebuilt env (s.tryNextTurnAttempt env) := by
  have hq := dropTurn_bumped_works env s
  unfold tryNextTurnAttempt
  dsimp only
  rw [hq.turnServers, hq.turnAttemptIdx, h.1]
  refine onTurnSettled_rebuilt ?_ ((readyToCheck_congr hq).mpr h.2.2)
  rw [stunSettled, hq.stunGathered, hq.cfg]
  exact h.2.1

theorem gather_rebuilt (h : s.gatherStartsChecks env) : Rebuilt env (s.gather env) := by
  have hg : Gathers (s.setState .gathering) ((s.setState .gathering).gatherCandidates env) :=
    gatherCandidates_gathers
  unfold gather
  dsimp only
  rw [if_pos (by rw [hg.cfg]; exact h.1), if_neg (by simp [h.2.1])]
  exact onGatheringComplete_rebuilt ⟨hg.state, by rw [hg.remoteCandidates]; exact h.2.2⟩

theorem stunProbes_rebuilt (h₁ : s.probesNobody env) (h₂ : s.readyToCheck) :
    Rebuilt env (s.stunProbes env) := by
  have hq : Quiet s (probeServers env false { s with pendingStunProbes := [] }) :=
    Keeps.after (probeServers_quiet env _ false) (.silent rfl le_rfl)
  refine Rebuilt.trans ?_ (steps_quiet (gatherTcpServerReflexive_quiet env _))
  unfold startMultiStunProbes
  dsimp only
  rw [probesNobody] at h₁
  rw [if_pos h₁]
  exact onGatheringComplete_rebuilt ((readyToCheck_congr hq.toWorks).mpr h₂)

theorem handleGatherResponse_rebuilt (h : s.gatherResponseStartsChecks m) :
    Rebuilt env (s.handleGatherResponse env m tx) := by
  obtain ⟨hx, hp, hs, ht, hr⟩ := h
  unfold handleGatherResponse
  split
  · rename_i hm
    simp [hm] at hx
  · rw [if_neg (not_not.mpr hp)]
    extract_lets c s₁ known s₂
    have hq : Quiet s s₁ := Keeps.after (observeSrflxPort_quiet _) (.silent rfl le_rfl)
    have hcore : s₂.core = { s₁.core with localCandidates := s₂.localCandidates } := by
      dsimp only [s₂, pushAllowed]
      split_ifs <;> rfl
    have hready : s₂.readyToCheck := by
      refine ⟨(congrArg Core.state hcore).trans (hq.state.trans hr.1), ?_⟩
      rw [show s₂.remoteCandidates = s₁.remoteCandidates from congrArg Core.remoteCandidates hcore,
        hq.remoteCandidates]
      exact hr.2
    have hstun : s₂.stunGathered = false :=
      (congrArg Core.stunGathered hcore).trans (hq.stunGathered.trans hs)
    have hturn : s₂.turnGathering = false :=
      (congrArg Core.turnGathering hcore).trans (hq.turnGathering.trans ht)
    unfold onFirstSrflx
    dsimp only
    rw [if_neg (by simp [hstun]), if_neg (by simp [hturn])]
    exact onGatheringComplete_rebuilt hready

theorem foldRelayIntoChecks_rebuilt (h₁ : s.remoteCandidates ≠ []) (h₂ : s.state = .checking) :
    Rebuilt env (s.foldRelayIntoChecks env) := by
  unfold foldRelayIntoChecks
  rw [if_pos ⟨h₁, h₂⟩]
  dsimp only
  split_ifs
  exacts [recheck_rebuilt, recheck_rebuilt.trans (Path.visible (.publish _) trivial)]

theorem onTurnAllocated_rebuilt {c : Candidate} (h : s.relayJoinsChecks c) :
    Rebuilt env (s.onTurnAllocated env c) := by
  obtain ⟨ha, hr, hs⟩ := h
  unfold onTurnAllocated
  extract_lets s₁ s₂ s₃
  rw [if_neg (by simpa [s₁] using ha)]
  have hq : Quiet s₂ s₃.armTurnBackups :=
    (createPermissions_quiet env _ s₂).trans (armTurnBackups_quiet _)
  have hst : s₃.armTurnBackups.state = s.state := hq.state
  have hrem : s₃.armTurnBackups.remoteCandidates ≠ [] := by
    rw [hq.remoteCandidates]
    exact hr
  have hset : s₃.armTurnBackups.stunSettled = s.stunSettled := by
    rw [stunSettled, stunSettled, hq.cfg, hq.stunGathered]
    rfl
  by_cases h : s₃.armTurnBackups.stunSettled = true ∧ s₃.armTurnBackups.readyToCheck
  · exact (onTurnSettled_rebuilt h.1 h.2).trans
      (foldRelayIntoChecks_steps trivial fun _ _ => Set.subset_univ _)
  · -- the settled phase was over, so the session is already checking
    have hc : s₃.armTurnBackups.state = .checking := by
      rcases hs with hs | hs
      · exact hst.trans hs
      · exact absurd ⟨hset.trans hs.2, hst.trans hs.1, hrem⟩ h
    obtain ⟨h₁, h₂⟩ := onTurnSettled_idle h
    exact foldRelayIntoChecks_rebuilt (by rwa [h₁]) (h₂.mpr hc)

theorem onTurnAllocateTimeout_rebuilt (h₁ : s.turnAllocated = false)
    (h₂ : s.turnExhausted (s.turnAttemptIdx + 1)) : Rebuilt env (s.onTurnAllocateTimeout env) := by
  unfold onTurnAllocateTimeout
  rw [if_neg (by simp [h₁])]
  exact tryNextTurnAttempt_rebuilt h₂

theorem recheckAfterFailover_rebuilt (h : s.failoverRechecks) :
    Rebuilt env (s.recheckAfterFailover env) := by
  unfold recheckAfterFailover
  split_ifs with h₁ h₂
  · exact recheck_rebuilt
  · exact recheck_rebuilt
  · exact (h.elim h₁ h₂).elim

theorem promoteTurnBackup_rebuilt {client : TurnClient} (h : s.failoverRechecks) :
    Rebuilt env (s.promoteTurnBackup env client cfg) := by
  unfold promoteTurnBackup
  extract_lets s₁ s₂ c
  have h₀ : Quiet s (s.drawn.stampFailover (env.clock s.draws)) :=
    .silent rfl (Nat.le_succ _)
  have hq : Works Effect.isQuiet s s₁ := h₀.toWorks.trans (turnClose_works env _)
  have hg : Gathers s₁ (pushAllowed c c.type { s₂ with turn := some client, turnCfg := cfg }) :=
    Gathers.after (pushAllowed_gathers) ⟨rfl⟩
  refine recheckAfterFailover_rebuilt ?_
  rwa [failoverRechecks, hg.state, hg.remoteCandidates, hq.state, hq.remoteCandidates]

theorem onBackupAllocated_rebuilt (h₁ : s.backupTakesOver env)
    (h₂ : s.failoverRechecks) : Rebuilt env (s.onBackupAllocated env cfg) := by
  unfold onBackupAllocated
  split
  · rename_i hp
    simp [backupTakesOver, hp] at h₁
  · rename_i probe _
    extract_lets since s₁
    have hn : ¬ (s₁.turn.any (·.isHealthy) = true ∨ since < s₁.cfg.turnFailoverMinIntervalS) := h₁.2
    rw [if_neg hn]
    exact promoteTurnBackup_rebuilt h₂

theorem onRemoteCandidates_rebuilt (h₁ : s.remoteCandidates ≠ []) (h₂ : s.checksNewCandidates) :
    Rebuilt env (s.onRemoteCandidates env) := by
  unfold onRemoteCandidates
  rw [if_neg h₁]
  split_ifs with hs hl hc
  · rcases h₂ with h | h
    · exact absurd hl h.2
    · rw [h] at hs
      simp at hs
  · exact startChecking_rebuilt
  · exact recheck_rebuilt.trans (resolveRemoteMdnsCandidates_steps (Set.mem_univ _))
  · exact (h₂.elim (fun h => hs h.1) hc).elim

theorem addRemoteCandidates_rebuilt {ufrag pwd : Bytes} {eoc : Bool}
    (h : s.batchRebuilds ufrag cands) :
    Rebuilt env (s.addRemoteCandidates env ufrag pwd cands eoc) := by
  obtain ⟨h₁, h₂, h₃⟩ := afterMerge_frame env ufrag pwd cands eoc s
  refine onRemoteCandidates_rebuilt (h₃.mpr h.1) ?_
  have := h.2
  rw [checksNewCandidates, ← h₁, ← h₂] at this
  exact this

theorem setRemote_rebuilt {ufrag pwd : Bytes}
    (h : s.descriptionStartsChecks) : Rebuilt env (s.setRemote env ufrag pwd cands) := by
  unfold setRemote
  dsimp only
  rw [descriptionStartsChecks] at h
  rw [if_pos h]
  exact startChecking_rebuilt.trans
    (resolveRemoteMdnsCandidates_steps (Set.mem_univ _))

theorem setPeerSignalFlags_rebuilt {symmetric : Bool} (h : s.flagsRebuild symmetric) :
    Rebuilt env (s.setPeerSignalFlags env symmetric) := by
  unfold setPeerSignalFlags
  dsimp only
  rw [if_pos ⟨by simpa using h.1, h.2⟩]
  exact recheck_rebuilt

theorem checkResolved_rebuilt (h : s.checksNewCandidates) : Rebuilt env (s.checkResolved env) := by
  unfold checkResolved
  split_ifs with hs hl hc
  · rcases h with h | h
    · exact absurd hl h.2
    · rw [h] at hs
      simp at hs
  · exact startChecking_rebuilt
  · exact recheck_rebuilt
  · exact (h.elim (fun h => hs h.1) hc).elim

theorem onMdnsResolved_rebuilt {idx : ℕ} {hostname : Bytes} {r : MdnsResolveResult}
    (h₁ : s.mdnsAnswers idx hostname r) (h₂ : s.checksNewCandidates) :
    Rebuilt env (s.onMdnsResolved env idx hostname r) := by
  obtain ⟨hf, ⟨slot, hslot, ht, hn⟩, hr, hne⟩ := h₁
  unfold onMdnsResolved
  rw [if_neg hf, hslot]
  dsimp only
  rw [if_neg (by simp [ht, hn]), if_neg (by simp only [hr]; simpa using hne)]
  exact checkResolved_rebuilt h₂

theorem onKeepalive_rebuilt (h₁ : s.losesConsent)
    (h₂ : s.consentRecoveryAttempts < s.cfg.consentMaxRecovery) :
    Rebuilt env (s.onKeepalive env) := by
  have hr : s.withoutConsent.consentRecoveryAttempts <
      s.withoutConsent.cfg.consentMaxRecovery := h₂
  rw [onKeepalive_lost h₁, onConsentLost, if_pos hr]
  exact startChecking_rebuilt

theorem onNominated_rebuilt {origin : NominationOrigin} {ep : Endpoint} {relay : Bool}
    (h₁ : s.losesConsentAtOnce) (h₂ : 0 < s.cfg.consentMaxRecovery) :
    Rebuilt env (s.onNominated env origin ep relay cid tx) := by
  rw [onNominated]
  obtain ⟨t, hq, he⟩ :=
    afterNomination_eq env (s.commitNomination origin ep relay cid tx) ep relay
  rw [he]
  refine Rebuilt.trans (onKeepalive_rebuilt ?_ ?_) beginPathMtu_steps
  · have hm : t.consentMissed = 0 := congrArg Core.consentMissed hq.core
    refine ⟨hq.state, ?_, ?_⟩
    · exact (congrArg IceConfig.liteMode hq.cfg).trans h₁.1
    · change t.cfg.consentMaxFailures ≤ t.consentMissed + 1
      rw [hq.cfg, hm]
      exact h₁.2
  · change t.consentRecoveryAttempts < t.cfg.consentMaxRecovery
    rw [hq.cfg, show t.consentRecoveryAttempts = 0 from
      congrArg Core.consentRecoveryAttempts hq.core]
    exact h₂

theorem flipRole_rebuilt (h : s.flipRebuilds) : Rebuilt env (s.flipRole env) := by
  rcases flipRole_eq env s with ⟨-, hf⟩ | ⟨hn, -⟩
  · rw [hf]
    exact recheck_rebuilt
  · exact absurd h hn

private theorem acceptRequest_steps_univ :
    Steps env Set.univ s (s.acceptRequest env m cid fromTcp) :=
  acceptRequest_steps m cid fromTcp (Set.mem_univ _) (fun _ _ _ _ _ _ => Set.mem_univ _)
    (fun _ _ _ => ⟨Set.mem_univ _, .univ s⟩) (fun _ _ => Set.mem_univ _)
    fun _ _ _ => Set.mem_univ _

theorem onStun_rebuilt (h : s.rebuildsOn env m cid fromTcp) :
    Rebuilt env (s.onStun env m cid fromTcp) := by
  rcases h with ⟨⟨hm, he⟩ | ⟨hm, hg⟩, hf⟩ | ⟨hn, h₁, h₂⟩
  · rw [onStun, if_pos hm, handleErrorResponse, if_pos he]
    exact flipRole_rebuilt hf
  · rw [onStun, if_neg (by rw [hm]; decide), if_neg (by rw [hm]; decide), if_pos hm,
      handleBindingRequest, if_pos hg.1]
    rcases handleRoleConflict_eq env s m hg.1 with ⟨-, he⟩ | ⟨hn, -⟩
    · rw [he]
      exact (flipRole_rebuilt hf).trans acceptRequest_steps_univ
    · exact absurd hg hn
  · obtain ⟨v, origin, ep, relay, c, tx, hleads, -, hrest⟩ := onStun_nominates hn
    refine Rebuilt.trans (onNominated_rebuilt ?_ ?_)
      (hrest.mono (Set.subset_univ _))
    · rwa [losesConsentAtOnce, hleads.cfg]
    · rwa [hleads.cfg]

theorem runTask_rebuilt {k : Task} (h : s.taskAllowed env k .rebuild) :
    Rebuilt env (s.runTask H env k) := by
  cases k with
  | stunProbes => exact stunProbes_rebuilt h.1 h.2
  | turnAttempt => exact tryNextTurnAttempt_rebuilt h
  | turnAllocated c => exact onTurnAllocated_rebuilt h
  | backupAllocated cfg => exact onBackupAllocated_rebuilt h.1 h.2
  | gatherTimeout gen =>
    rw [runTask, if_pos h.1]
    exact onGatheringComplete_rebuilt h.2
  | gatherFallback gen =>
    rw [runTask, if_pos h.1]
    exact onGatheringComplete_rebuilt h.2
  | turnAllocateTimeout gen =>
    rw [runTask, if_pos h.1]
    exact onTurnAllocateTimeout_rebuilt h.2.1 h.2.2
  | keepalive gen =>
    rw [runTask, if_pos h.1]
    exact onKeepalive_rebuilt h.2.1 h.2.2
  | _ => exact h.elim

def rebuilds (H : Hmac) (env : Env) (s : Session) (e : Event) : Prop := .rebuild ∈ s.allowed H env e

theorem step_rebuilt {e : Event} (h : s.rebuilds H env e) : Rebuilt env (s.step H env e) := by
  rcases h with h | ⟨d, hd, h⟩
  · cases e with
    | gather => exact gather_rebuilt h
    | addRemoteCandidates ufrag pwd cands eoc => exact addRemoteCandidates_rebuilt h
    | setRemote ufrag pwd cands => exact setRemote_rebuilt h
    | setPeerSignalFlags symmetric => exact setPeerSignalFlags_rebuilt h
    | mdnsResolved idx hostname r =>
      rw [step, if_pos h.1]
      exact onMdnsResolved_rebuilt h.2.1 h.2.2
    | task k =>
      rw [step, if_pos h.1]
      exact runTask_rebuilt h.2
    | _ => exact h.elim
  · rw [(step_inbound H env hd).2]
    rcases h with ⟨h, -⟩ | ⟨m, hm, h⟩ | ⟨m, hm, h⟩
    · cases h
    · rw [onCarrierData_gatherResponse hm]
      exact handleGatherResponse_rebuilt h
    · rw [onCarrierData_accepted hm]
      exact onStun_rebuilt h

theorem step_mu_free_iff (H : Hmac) (env : Env) (s : Session) (e : Event) (h : s.mu = .free) :
    (s.step H env e).mu = .free ↔ ¬ s.rebuilds H env e := by
  refine ⟨fun hm hr => ?_, fun hr => steps_mu_free (step_steps H env s e) hr h⟩
  rw [(step_rebuilt hr).deadlocked] at hm
  cases hm

/-- The operations of a run all find the mutex free and leave it free if and only if none of
them builds a check list. -/
theorem run_mu_free_iff (H : Hmac) (env : Env) (cfg : IceConfig) (w : Wiring) (controlling : Bool)
    (tiebreaker : ℕ) (es : List Event) :
    (∀ fs, fs <+: es → ((create env cfg w controlling tiebreaker).run H env fs).mu = .free) ↔
      Along (step H env) (fun s e => ¬ s.rebuilds H env e)
        (create env cfg w controlling tiebreaker) es :=
  forall_prefix_iff_along (I := fun s : Session => s.mu = .free) (step_mu_free_iff H env) rfl

/-- Gathering leaves the mutex free and the peer's first batch locks it twice, whatever the
HMAC function is. -/
theorem first_batch_locks_twice :
    (fun H : Hmac => (((create .lan {} {} true 7).run H .lan [.gather]).mu,
        ((create .lan {} {} true 7).run H .lan
          [.gather, .addRemoteCandidates [1] [2] [peerHost] false]).mu)) =
      fun _ => (.free, .deadlocked) := by
  have h₁ : ((create .lan {} {} true 7).gather .lan).mu = .free := by decide +kernel
  have h₂ : (((create .lan {} {} true 7).gather .lan).addRemoteCandidates .lan [1] [2]
      [peerHost] false).mu = .deadlocked := by decide +kernel
  funext H
  simp only [run_cons, run_nil, step, h₁, h₂]

end Session

end LinkIce
