import LinkIce.Session.InboundPaths

/-! Every step of a session is a path of the actions that its event licenses. -/
namespace LinkIce
open Stun Option

/-- The bytes complete the allocation of a client that has not asked for the permissions its
checks will need. -/
def Session.allocatesStray (env : Env) (bytes : Bytes) (s : Session) : Prop :=
  (s.turnOnInbound env bytes).turnAllocated = true ∧ s.allocationStrays env = true

/-- The bytes give a client that has an allocation another one. -/
def Session.allocationMoves (env : Env) (bytes : Bytes) (s : Session) : Prop :=
  turnStays s.turn (s.turnOnInbound env bytes).turn = false

/-- Bytes from a peer on their way into `on_carrier_data`. -/
structure Delivery where
  session : Session
  cid : Cid
  fromTcp : Bool
  data : Bytes

namespace Delivery

def isTurn (d : Delivery) : Bool :=
  Session.isTurnServer d.session.turn d.cid || Session.isTurnServer d.session.turnBackupProbe d.cid

def gatherResponse (env : Env) (d : Delivery) : Option StunMessage :=
  if d.isTurn then none
  else (parseStun env.net d.data).filter fun m => d.session.isGatherResponse m

def accepted (H : Hmac) (env : Env) (d : Delivery) : Option StunMessage :=
  if d.isTurn then none
  else (parseStun env.net d.data).filter fun m =>
    !d.session.isGatherResponse m && d.session.authenticated H m d.data

def isForeign (env : Env) (d : Delivery) : Bool := d.isTurn || (parseStun env.net d.data).isNone

def allowed (H : Hmac) (env : Env) (d : Delivery) : Set Label :=
  { l | (l.delivers = true ∧ d.isForeign env = true ∧
      (∀ moves, l = .deliver true moves →
        Session.isTurnServer d.session.turn d.cid = true ∧ d.session.allocatesStray env d.data) ∧
      ∀ strays, l = .deliver strays true →
        Session.isTurnServer d.session.turn d.cid = true ∧ d.session.allocationMoves env d.data) ∨
    (∃ m ∈ d.gatherResponse env, l ∈ d.session.gatherResponseLabels env m
      (d.session.sourceTransport d.fromTcp d.cid)) ∨
    ∃ m ∈ d.accepted H env, l ∈ d.session.stunAllowed env m d.cid d.fromTcp }

end Delivery

/-- No datagram leads to the action. -/
def Label.isLocal : Label → Bool
  | .merge _ | .restate _ _ | .teardown | .expire _ | .relay _ => true
  | _ => false

namespace Session

variable {H : Hmac} {env : Env} {A : Set Label} {s t : Session} {bytes : Bytes} {d : Delivery}
  {e : Event} {m : StunMessage} {u : Session}

def inbound (s : Session) : Event → Option Delivery
  | .udpData cid bytes => some ⟨s, cid, false, bytes⟩
  | .tcpFrame cid =>
    ((s.tcpRxBuffers.lookup cid).bind TurnClient.tryTakeStreamFrame).map fun r =>
      ⟨{ s with tcpRxBuffers := s.tcpRxBuffers.insert cid r.2 }, cid, true, r.1⟩
  | .task (.relayStun ep bytes) =>
    if .relayStun ep bytes ∈ s.queue then
      let r := (s.dequeue (.relayStun ep bytes)).relayCidForEndpoint ep
      some ⟨r.2, r.1, false, bytes⟩
    else none
  | _ => none

def taskAllowed (env : Env) (s : Session) : Task → Label → Prop
  | .stunProbes, .rebuild => s.probesNobody env ∧ s.readyToCheck
  | .turnAttempt, .rebuild => s.turnExhausted s.turnAttemptIdx
  | .turnAllocated c, .rebuild => s.relayJoinsChecks c
  | .turnAllocated c, .relay c' => c' = c
  | .backupAllocated _, .rebuild => s.backupTakesOver env ∧ s.failoverRechecks
  | .backupAllocated _, .takeover strays => strays = true →
    s.backupTakesOver env ∧ ∃ probe ∈ s.turnBackupProbe, s.takeoverStrays env probe = true
  | .gatherTimeout gen, .rebuild | .gatherFallback gen, .rebuild =>
    s.gatherGen = gen ∧ s.readyToCheck
  | .turnAllocateTimeout gen, .rebuild =>
    s.turnAllocateGen = gen ∧ s.turnAllocated = false ∧ s.turnExhausted (s.turnAttemptIdx + 1)
  | .stunProbes, .exhaust u =>
    s.probesNobody env ∧ s.readyToCheck ∧ .exhaust u ∈
      (probeServers env false { s with pendingStunProbes := [] }).leaveGathering.starts env
  | .turnAttempt, .exhaust u =>
    s.turnExhausted s.turnAttemptIdx ∧ .exhaust u ∈ (s.giveUpTurn env).starts env
  | .turnAllocated c, .exhaust u => s.relayJoinsChecks c ∧ .exhaust u ∈ s.relayStarts env c
  | .backupAllocated cfg, .exhaust u =>
    s.backupTakesOver env ∧ s.failoverRechecks ∧ .exhaust u ∈ s.takeoverStarts env cfg
  | .gatherTimeout gen, .exhaust u | .gatherFallback gen, .exhaust u =>
    s.gatherGen = gen ∧ s.readyToCheck ∧ .exhaust u ∈ s.leaveGathering.starts env
  | .turnAllocateTimeout gen, .exhaust u =>
    s.turnAllocateGen = gen ∧ s.turnAllocated = false ∧
      s.turnExhausted (s.turnAttemptIdx + 1) ∧
      .exhaust u ∈ (giveUpTurn env { s with turnAttemptIdx := s.turnAttemptIdx + 1 }).starts env
  | .checkTick gen, .exhaust u => s.checkGen = gen ∧ s.givesUp env u
  | .keepalive gen, .exhaust u =>
    s.keepaliveGen = gen ∧ s.losesConsent ∧
      s.consentRecoveryAttempts < s.cfg.consentMaxRecovery ∧
      .exhaust u ∈ s.recovering.starts env
  | .stunProbes, .work | .stunProbes, .publish | .turnAttempt, .work | .turnAttempt, .release
  | .turnAttempt, .publish | .turnAllocated _, .work | .turnAllocated _, .publish
  | .closeTeardown, .release | .closeTeardown, .teardown => True
  | .gatherTimeout gen, .work | .gatherFallback gen, .work
  | .gatherTimeout gen, .publish | .gatherFallback gen, .publish => s.gatherGen = gen
  | .turnAllocateTimeout gen, .work | .turnAllocateTimeout gen, .release
  | .turnAllocateTimeout gen, .publish =>
    s.turnAllocateGen = gen ∧ s.turnAllocated = false
  | .backupAllocated _, .release => s.backupTakesOver env
  | .turnAllocated c, .liteCheck => s.relayJoinsChecks c ∧ .liteCheck ∈ s.relayStarts env c
  | .backupAllocated cfg, .liteCheck =>
    s.backupTakesOver env ∧ s.failoverRechecks ∧ .liteCheck ∈ s.takeoverStarts env cfg
  | .checkTick gen, .liteCheck =>
    s.cfg.liteMode = true ∧ s.checkGen = gen ∧ s.state = .checking
  | .tcpConnectTimeout _, .rxBuffers => True
  | .nominationWait gen, .expire premature =>
    s.nominationWaitGen = gen ∧ s.state ≠ .connected ∧ premature = s.checksUnfinished
  | .keepalive gen, .rebuild =>
    s.keepaliveGen = gen ∧ s.losesConsent ∧ s.consentRecoveryAttempts < s.cfg.consentMaxRecovery
  | .keepalive gen, .restart | .keepalive gen, .gather false | .keepalive gen, .loseConsent
  | .keepalive gen, .hosts | .keepalive gen, .work | .keepalive gen, .release
  | .keepalive gen, .publish =>
    s.keepaliveGen = gen ∧ s.losesConsent ∧ s.cfg.consentMaxRecovery ≤ s.consentRecoveryAttempts
  | .keepalive gen, .refresh => s.keepaliveGen = gen ∧ s.losesConsent
  | _, _ => False

def eventAllowed (env : Env) (s : Session) : Event → Label → Prop
  | .gather, .gather revives => revives = decide (s.state = .failed)
  | .gather, .hosts | .gather, .work | .gather, .release | .gather, .publish => True
  | .addRemoteCandidates _ _ cands _, .merge c => c ∈ cands
  | .addRemoteCandidates _ _ _ _, .resolve | .addRemoteCandidates _ _ _ _, .publish
  | .setRemote _ _ _, .resolve => True
  | .addRemoteCandidates ufrag pwd cands eoc, .liteCheck =>
    s.batchRebuilds ufrag cands ∧
      .liteCheck ∈ (s.afterMerge env ufrag pwd cands eoc).candidateStarts env
  | .setPeerSignalFlags symmetric, .liteCheck =>
    s.flagsRebuild symmetric ∧
      .liteCheck ∈ ({ s with peerSymmetric := symmetric } : Session).rechecks env
  | .mdnsResolved idx hostname r, .liteCheck =>
    .mdnsResolve idx hostname ∈ s.queue ∧ s.mdnsAnswers idx hostname r ∧ s.checksNewCandidates ∧
      ∃ slot ∈ s.remoteCandidates[idx]?, .liteCheck ∈
        ((s.dequeue (.mdnsResolve idx hostname)).foldResolved env idx slot r).resolvedStarts env
  | .mdnsResolved idx hostname _, .dequeue k =>
    .mdnsResolve idx hostname ∈ s.queue ∧ k = .mdnsResolve idx hostname
  | .gather, .rebuild => s.gatherStartsChecks env
  | .addRemoteCandidates ufrag _ _ _, .forget => s.changesCredentials ufrag
  | .addRemoteCandidates ufrag _ cands _, .rebuild => s.batchRebuilds ufrag cands
  | .addRemoteCandidates ufrag pwd _ eoc, .pick leaves =>
    eoc = true ∧ s.endOfCandidatesPicks ∧
      (CheckPair.bestValid (s.adoptRemoteCredentials ufrag pwd).checkList).isSome = true ∧
      leaves = (s.adoptRemoteCredentials ufrag pwd).noteEndOfCandidates.pickLeaves env
  | .gather, .exhaust u =>
    s.gatherStartsChecks env ∧
      .exhaust u ∈ ((s.setState .gathering).gatherCandidates env).leaveGathering.starts env
  | .addRemoteCandidates ufrag pwd cands eoc, .exhaust u =>
    s.batchRebuilds ufrag cands ∧
      .exhaust u ∈ (s.afterMerge env ufrag pwd cands eoc).candidateStarts env
  | .setRemote ufrag pwd cands, .exhaust u =>
    s.descriptionStartsChecks ∧ .exhaust u ∈ (s.describeRemote ufrag pwd cands).starts env
  | .setPeerSignalFlags symmetric, .exhaust u =>
    s.flagsRebuild symmetric ∧
      .exhaust u ∈ ({ s with peerSymmetric := symmetric } : Session).rechecks env
  | .mdnsResolved idx hostname r, .exhaust u =>
    .mdnsResolve idx hostname ∈ s.queue ∧ s.mdnsAnswers idx hostname r ∧ s.checksNewCandidates ∧
      ∃ slot ∈ s.remoteCandidates[idx]?, .exhaust u ∈
        ((s.dequeue (.mdnsResolve idx hostname)).foldResolved env idx slot r).resolvedStarts env
  | .setRemote _ _ _, .rebuild => s.descriptionStartsChecks
  | .setPeerSignalFlags symmetric, .rebuild => s.flagsRebuild symmetric
  | .restart, .restart | .restart, .gather false | .restart, .hosts | .restart, .work
  | .restart, .release | .restart, .publish => s.state ≠ .failed
  | .close, .close => True
  | .tcpBytes _ _, .rxBuffers | .tcpFrame _, .rxBuffers => True
  | .turnStream backup bytes, .deliver strays moves =>
    (strays = true → backup = false ∧ s.allocatesStray env bytes) ∧
      (moves = true → backup = false ∧ s.allocationMoves env bytes)
  | .setRemote _ _ cands, .restate strays cs =>
    cs = cands ∧ (strays = true → s.remotesStray env cands = true)
  | .mdnsResolved idx hostname r, .restate strays cs =>
    .mdnsResolve idx hostname ∈ s.queue ∧ ∃ slot ∈ s.awaitingSlot idx hostname,
      cs = s.resolvedRemotes env idx slot r ∧
      (strays = true → s.remotesStray env (s.resolvedRemotes env idx slot r) = true)
  | .mdnsResolved idx hostname r, .rebuild =>
    .mdnsResolve idx hostname ∈ s.queue ∧ s.mdnsAnswers idx hostname r ∧ s.checksNewCandidates
  | .task t, .dequeue k => t ∈ s.queue ∧ k = t
  | .task t, l => t ∈ s.queue ∧ (s.dequeue t).taskAllowed env t l
  | _, _ => False

def allowed (H : Hmac) (env : Env) (s : Session) (e : Event) : Set Label :=
  { l | s.eventAllowed env e l ∨ ∃ d ∈ s.inbound e, l ∈ d.allowed H env }

private theorem turnOnInbound_gatherKept : GatherKept s (s.turnOnInbound env bytes) := by
  unfold turnOnInbound
  split
  · exact .refl s
  · refine GatherKept.trans ?_ (turnOutputs_delivers env _ _ _).gather
    exact ⟨rfl, rfl, List.Subset.refl _⟩

theorem turnOnInbound_act : Act env s
    (some (.deliver ((s.turnOnInbound env bytes).turnAllocated && s.allocationStrays env)
      (!turnStays s.turn (s.turnOnInbound env bytes).turn)))
    (s.turnOnInbound env bytes) :=
  .turnInput (turnOnInbound_keepsCore env s) turnOnInbound_gatherKept
    (turnOnInbound_permissions env s) (turnOnInbound_backup env s)
    (turnOnInbound_posts env s)

theorem steps_delivers (h : Delivers s t) (hA : .deliver false false ∈ A) : Steps env A s t :=
  .visible (.deliver h) hA

theorem allocates_of_strays
    (h : ((s.turnOnInbound env bytes).turnAllocated && s.allocationStrays env) = true) :
    s.allocatesStray env bytes := by
  simpa [allocatesStray] using h

theorem moves_of_not_stays (h : (!turnStays s.turn (s.turnOnInbound env bytes).turn) = true) :
    s.allocationMoves env bytes := by
  simpa [allocationMoves] using h

theorem turnStream_steps {backup : Bool}
    (hA : ∀ strays moves, (strays = true → backup = false ∧ s.allocatesStray env bytes) →
      (moves = true → backup = false ∧ s.allocationMoves env bytes) → .deliver strays moves ∈ A) :
    Steps env A s (s.turnStream env backup bytes) := by
  unfold turnStream
  split_ifs with hb
  · exact steps_delivers (turnBackupOnInbound_delivers env s) (hA false false nofun nofun)
  · exact .refl s
  · have hb' : backup = false := by simpa using hb
    exact .visible turnOnInbound_act (hA _ _ (fun h => ⟨hb', allocates_of_strays h⟩)
      fun h => ⟨hb', moves_of_not_stays h⟩)
  · exact .refl s

theorem onCarrierData_steps (d : Delivery) :
    Steps env (d.allowed H env) d.session
      (d.session.onCarrierData H env d.cid d.fromTcp d.data) := by
  unfold onCarrierData
  split
  · rename_i h₁
    refine .visible turnOnInbound_act (.inl ⟨rfl,
      by simp [Delivery.isForeign, Delivery.isTurn, h₁], fun moves h => ⟨h₁, ?_⟩,
      fun strays h => ⟨h₁, ?_⟩⟩)
    · exact allocates_of_strays (Label.deliver.inj h).1
    · exact moves_of_not_stays (Label.deliver.inj h).2
  · rename_i h₁
    split
    · rename_i h₂
      exact steps_delivers (turnBackupOnInbound_delivers env _)
        (.inl ⟨rfl, by simp [Delivery.isForeign, Delivery.isTurn, h₂], nofun, nofun⟩)
    · rename_i h₂
      have hturn : d.isTurn = false := by simp [Delivery.isTurn, h₁, h₂]
      split
      · rename_i hm
        exact steps_delivers (onAppData_delivers _)
          (.inl ⟨rfl, by simp [Delivery.isForeign, hm], nofun, nofun⟩)
      · rename_i m hm
        split
        · rename_i hg
          refine handleGatherResponse_steps fun l hl => .inr (.inl ⟨m, ?_, hl⟩)
          simp [Delivery.gatherResponse, hturn, hm, hg]
        · rename_i hg
          split
          · rename_i ha
            refine (onStun_steps).mono fun l hl => .inr (.inr ⟨m, ?_, hl⟩)
            simp [Delivery.accepted, hturn, hm, hg, ha]
          · exact .refl _

theorem onCarrierData_gatherResponse (h : m ∈ d.gatherResponse env) :
    d.session.onCarrierData H env d.cid d.fromTcp d.data =
      d.session.handleGatherResponse env m (d.session.sourceTransport d.fromTcp d.cid) := by
  unfold Delivery.gatherResponse at h
  split_ifs at h with ht
  · cases h
  · obtain ⟨hp, hg⟩ := filter_eq_some_iff.mp h
    simp only [Delivery.isTurn, Bool.or_eq_true, not_or] at ht
    rw [onCarrierData, if_neg ht.1, if_neg ht.2, hp]
    dsimp only
    rw [if_pos hg]

theorem onCarrierData_accepted (h : m ∈ d.accepted H env) :
    d.session.onCarrierData H env d.cid d.fromTcp d.data =
      d.session.onStun env m d.cid d.fromTcp := by
  unfold Delivery.accepted at h
  split_ifs at h with ht
  · cases h
  · obtain ⟨hp, hg⟩ := filter_eq_some_iff.mp h
    simp only [Bool.and_eq_true, Bool.not_eq_true'] at hg
    simp only [Delivery.isTurn, Bool.or_eq_true, not_or] at ht
    rw [onCarrierData, if_neg ht.1, if_neg ht.2, hp]
    dsimp only
    rw [if_neg (by simp [hg.1]), if_pos hg.2]

private theorem dequeue_works {t : Task} : Works Effect.isQuiet s (s.dequeue t) :=
  { Works.refl s with posts := fun _ h => .inl (List.mem_of_mem_erase h) }

/-- What is delivered is what the step runs. -/
theorem step_inbound (H : Hmac) (env : Env) (h : d ∈ s.inbound e) :
    (∃ l, ((∃ cid, e = .tcpFrame cid) ∨ l = s.tcpRxBuffers) ∧
      Works Effect.isQuiet { s with tcpRxBuffers := l } d.session) ∧
      s.step H env e = d.session.onCarrierData H env d.cid d.fromTcp d.data := by
  unfold inbound at h
  split at h
  · obtain rfl := some.inj h
    exact ⟨⟨s.tcpRxBuffers, .inr rfl, .refl s⟩, rfl⟩
  · rename_i cid
    obtain ⟨r, hr, rfl⟩ := map_eq_some_iff.mp h
    refine ⟨⟨_, .inl ⟨cid, rfl⟩, .refl _⟩, ?_⟩
    simp only [step, tcpFrame, hr]
  · rename_i ep bytes
    split_ifs at h with hq
    · obtain rfl := some.inj h
      refine ⟨⟨s.tcpRxBuffers, .inr rfl,
        dequeue_works.trans (relayCidForEndpoint_quiet _ _).toWorks⟩, ?_⟩
      simp only [step, if_pos hq, runTask, onRelayStun]
    · cases h
  · cases h

/-- The way to the session that receives the bytes. -/
theorem inbound_steps (h : d ∈ s.inbound e) : Steps env (s.allowed H env e) s d.session := by
  unfold inbound at h
  split at h
  · obtain rfl := some.inj h
    exact .refl s
  · obtain ⟨r, -, rfl⟩ := map_eq_some_iff.mp h
    exact .visible (.rxBuffers s _) (.inl trivial)
  · split_ifs at h with hq
    · obtain rfl := some.inj h
      exact (Path.visible (.dequeue s _) (.inl ⟨hq, rfl⟩)).trans
        (steps_quiet (relayCidForEndpoint_quiet _ _))
    · cases h
  · cases h

theorem step_inbound_steps (h : d ∈ s.inbound e) :
    Steps env (s.allowed H env e) s (s.step H env e) := by
  rw [(step_inbound H env h).2]
  exact (inbound_steps h).trans ((onCarrierData_steps d).mono fun l hl => .inr ⟨d, h, hl⟩)

theorem runTask_steps {t : Task} (ht : ∀ ep bytes, t ≠ .relayStun ep bytes)
    (hA : ∀ l, s.taskAllowed env t l → l ∈ A) : Steps env A s (s.runTask H env t) := by
  cases t with
  | stunProbes =>
    exact stunProbes_steps (hA .work trivial) (hA .publish trivial) fun h₁ h₂ => starts_subset
      (hA .rebuild ⟨h₁, h₂⟩) fun u hu => hA (.exhaust u) ⟨h₁, h₂, hu⟩
  | turnAttempt =>
    exact tryNextTurnAttempt_steps (hA .work trivial) (hA .release trivial)
      (fun _ => hA .publish trivial) fun h₁ h₂ h₃ => starts_subset (hA .rebuild ⟨h₁, h₂, h₃⟩)
        fun u hu => hA (.exhaust u) ⟨⟨h₁, h₂, h₃⟩, hu⟩
  | turnAllocated c =>
    exact onTurnAllocated_steps (hA .work trivial) (hA .publish trivial) (hA (.relay c) rfl)
      fun h => subset_of_checkLabels relayStarts_checkLabels (hA .rebuild h)
        (fun u hu => hA (.exhaust u) ⟨h, hu⟩) fun hl => hA .liteCheck ⟨h, hl⟩
  | backupAllocated cfg =>
    exact onBackupAllocated_steps (fun h => hA .release h)
      (fun h probe hp => hA (.takeover _) fun hs => ⟨h, probe, hp, hs⟩)
      fun h₁ h₂ => subset_of_checkLabels takeoverStarts_checkLabels
        (hA .rebuild ⟨h₁, h₂⟩) (fun u hu => hA (.exhaust u) ⟨h₁, h₂, hu⟩)
        fun hl => hA .liteCheck ⟨h₁, h₂, hl⟩
  | relayStun ep bytes => exact absurd rfl (ht ep bytes)
  | closeTeardown => exact closeTeardown_steps (hA .release trivial) (hA .teardown trivial)
  | gatherTimeout gen =>
    simp only [runTask]
    split_ifs with hg
    · exact onGatherTimeout_steps (hA .work hg) (hA .publish hg) fun h => starts_subset
        (hA .rebuild ⟨hg, h⟩) fun u hu => hA (.exhaust u) ⟨hg, h, hu⟩
    · exact .refl s
  | gatherFallback gen =>
    simp only [runTask]
    split_ifs with hg
    · exact onGatheringComplete_steps (hA .work hg) (hA .publish hg) fun h => starts_subset
        (hA .rebuild ⟨hg, h⟩) fun u hu => hA (.exhaust u) ⟨hg, h, hu⟩
    · exact .refl s
  | turnAllocateTimeout gen =>
    simp only [runTask]
    split_ifs with hg
    · exact onTurnAllocateTimeout_steps (fun h => hA .work ⟨hg, h⟩) (fun h => hA .release ⟨hg, h⟩)
        (fun h => hA .publish ⟨hg, h⟩) fun h₁ h₂ => starts_subset (hA .rebuild ⟨hg, h₁, h₂⟩)
          fun u hu => hA (.exhaust u) ⟨hg, h₁, h₂, hu⟩
    · exact .refl s
  | turnBackupTick gen =>
    simp only [runTask]
    split_ifs
    exacts [steps_quiet (onTurnBackupTick_quiet env s), .refl s]
  | checkTick gen =>
    simp only [runTask]
    split_ifs with hg
    · exact runNextCheck_steps (fun u h => hA (.exhaust u) ⟨hg, h⟩)
        fun h₁ h₂ => hA .liteCheck ⟨h₁, hg, h₂⟩
    · exact .refl s
  | nominationWait gen =>
    simp only [runTask]
    split_ifs with hg
    · unfold onNominationWaitExpired
      split_ifs with hs
      exacts [.refl s, .visible (.expire s hs) (hA (.expire _) ⟨hg, hs, rfl⟩)]
    · exact .refl s
  | keepalive gen =>
    simp only [runTask]
    split_ifs with hg
    · exact onKeepalive_steps ⟨fun h => hA .refresh ⟨hg, h⟩,
        fun h₁ h₂ => hA .rebuild ⟨hg, h₁, h₂⟩,
        fun h₁ h₂ => ⟨hA .restart ⟨hg, h₁, h₂⟩, hA (.gather false) ⟨hg, h₁, h₂⟩,
          gatherLabels_subset (hA .hosts ⟨hg, h₁, h₂⟩) (hA .work ⟨hg, h₁, h₂⟩)
            (hA .release ⟨hg, h₁, h₂⟩) (hA .publish ⟨hg, h₁, h₂⟩)⟩,
        fun h₁ h₂ => hA .loseConsent ⟨hg, h₁, h₂⟩⟩
        fun h₁ h₂ u hu => hA (.exhaust u) ⟨hg, h₁, h₂, hu⟩
    · exact .refl s
  | pmtuTimeout gen =>
    simp only [runTask]
    split_ifs
    exacts [onPathMtuProbeTimeout_steps, .refl s]
  | tcpConnectTimeout cid => exact onTcpConnectTimeout_steps cid (hA .rxBuffers trivial)
  | mdnsResolve idx hostname => exact .refl s

theorem close_steps (hA : .close ∈ A) : Steps env A s s.close := by
  unfold close
  exact Path.after (steps_quiet (.post _ trivial)) (.visible (.close s) hA)

private theorem taskAllowed_dequeue {t k : Task} : ¬ s.taskAllowed env t (.dequeue k) := by
  cases t <;> exact id

/-- Every step is a path of permitted actions. -/
theorem step_steps (H : Hmac) (env : Env) (s : Session) (e : Event) :
    Steps env (s.allowed H env e) s (s.step H env e) := by
  cases e with
  | gather =>
    exact gather_steps (.inl rfl)
      (gatherLabels_subset (.inl trivial) (.inl trivial) (.inl trivial) (.inl trivial))
      fun h => starts_subset (.inl h) fun u hu => .inl ⟨h, hu⟩
  | addRemoteCandidates ufrag pwd cands eoc =>
    exact addRemoteCandidates_steps ufrag pwd cands eoc (.inl trivial) (.inl trivial)
      (fun c hc => .inl hc)
      (fun h => .inl h) (fun h₁ h₂ h₃ => .inl ⟨h₁, h₂, h₃, rfl⟩) fun h =>
        subset_of_checkLabels candidateStarts_checkLabels (.inl h) (fun u hu => .inl ⟨h, hu⟩)
          fun hl => .inl ⟨h, hl⟩
  | setRemote ufrag pwd cands =>
    exact setRemote_steps (.inl trivial) (.inl ⟨rfl, id⟩) fun h =>
      starts_subset (.inl h) fun u hu => .inl ⟨h, hu⟩
  | setPeerSignalFlags symmetric =>
    exact setPeerSignalFlags_steps fun h => subset_of_checkLabels rechecks_checkLabels
      (.inl h) (fun u hu => .inl ⟨h, hu⟩) fun hl => .inl ⟨h, hl⟩
  | restart =>
    exact restart_steps (fun h => .inl h) (fun h => .inl h)
      fun h => gatherLabels_subset (.inl h) (.inl h) (.inl h) (.inl h)
  | close => exact close_steps (.inl trivial)
  | send buf => exact steps_quiet (sendPosted_quiet env s buf)
  | udpData cid bytes => exact step_inbound_steps rfl
  | tcpBytes cid bytes => exact .visible (.rxBuffers s _) (.inl trivial)
  | tcpFrame cid =>
    cases hr : (s.tcpRxBuffers.lookup cid).bind TurnClient.tryTakeStreamFrame with
    | none =>
      simp only [step, tcpFrame, hr]
      exact .refl s
    | some r => exact step_inbound_steps (map_eq_some_iff.mpr ⟨r, hr, rfl⟩)
  | turnStream backup bytes =>
    exact turnStream_steps fun strays moves h₁ h₂ => .inl ⟨h₁, h₂⟩
  | mdnsResolved idx hostname r =>
    simp only [step]
    split_ifs with hq
    · refine (Path.visible (.dequeue s _) (.inl ⟨hq, rfl⟩)).trans
        (onMdnsResolved_steps
          (fun slot hslot => .inl ⟨hq, slot, hslot, rfl, id⟩) ?_)
      exact fun h₁ h₂ slot hs => subset_of_checkLabels resolvedStarts_checkLabels
        (.inl ⟨hq, h₁, h₂⟩) (fun u hu => .inl ⟨hq, h₁, h₂, slot, hs, hu⟩)
        fun hl => .inl ⟨hq, h₁, h₂, slot, hs, hl⟩
    · exact .refl s
  | task t =>
    by_cases hq : t ∈ s.queue
    · by_cases ht : ∃ ep bytes, t = .relayStun ep bytes
      · obtain ⟨ep, bytes, rfl⟩ := ht
        exact step_inbound_steps (by simp only [inbound, if_pos hq]; rfl)
      · push Not at ht
        simp only [step, if_pos hq]
        refine (Path.visible (.dequeue s t) (.inl ⟨hq, rfl⟩)).trans
          (runTask_steps ht fun l hl => .inl ?_)
        cases l with
        | dequeue k => exact absurd hl taskAllowed_dequeue
        | _ => exact ⟨hq, hl⟩
    · simp only [step, if_neg hq]
      exact .refl s

theorem candidateStarts_untried (h : .exhaust u ∈ s.candidateStarts env) : u.Untried := by
  unfold candidateStarts at h
  split_ifs at h
  exacts [(rechecks_untried h).1, (starts_untried h).1]

private theorem resolvedStarts_untried (h : .exhaust u ∈ s.resolvedStarts env) : u.Untried := by
  unfold resolvedStarts at h
  split_ifs at h
  exacts [(rechecks_untried h).1, (starts_untried h).1]

/-- A list on which something has happened is given up by a tick, or by a controlled session. -/
theorem exhaust_cases (h : .exhaust u ∈ s.allowed H env e) :
    u.Untried ∨ u.controlling = false ∨ ∃ gen, e = .task (.checkTick gen) ∧
      .checkTick gen ∈ s.queue ∧ s.checkGen = gen ∧
      (s.dequeue (.checkTick gen)).givesUp env u := by
  rcases h with h | ⟨d, -, ⟨h, -⟩ | ⟨m, -, h⟩ | ⟨m, -, h⟩⟩
  · cases e with
    | gather | setRemote => exact .inl (starts_untried h.2).1
    | addRemoteCandidates => exact .inl (candidateStarts_untried h.2)
    | setPeerSignalFlags => exact .inl (rechecks_untried h.2).1
    | mdnsResolved =>
      obtain ⟨-, -, -, slot, -, h⟩ := h
      exact .inl (resolvedStarts_untried h)
    | task k =>
      obtain ⟨hq, h⟩ := h
      cases k with
      | checkTick gen => exact .inr (.inr ⟨gen, rfl, hq, h.1, h.2⟩)
      | stunProbes | gatherTimeout | gatherFallback => exact .inl (starts_untried h.2.2).1
      | turnAttempt => exact .inl (starts_untried h.2).1
      | turnAllocated =>
        rcases h.2 with h | h
        exacts [.inl (starts_untried h).1, .inl (rechecks_untried h).1]
      | backupAllocated =>
        obtain ⟨-, -, probe, -, h⟩ := h
        exact .inl (rechecks_untried h).1
      | turnAllocateTimeout | keepalive => exact .inl (starts_untried h.2.2.2).1
      | _ => exact h.elim
    | _ => exact h.elim
  · cases h
  · exact .inl (starts_untried h.2).1
  · rcases h with ⟨-, -, h⟩ | ⟨-, -, -, h, -⟩ | ⟨-, ⟨-, -, hc, -, hu⟩ | ⟨-, -, hc, -, hu⟩⟩
    · exact .inl (rechecks_untried h).1
    · exact .inl h
    all_goals
      refine .inr (.inl ?_)
      rw [(givesUp_scheduled hu).controlling, deferNomination_controlling]
      exact (congrArg Core.controlling (answerRequest_core m d.cid d.fromTcp _)).trans hc

theorem eventAllowed_of_isLocal {l : Label} (h : l ∈ s.allowed H env e) (hl : l.isLocal = true) :
    s.eventAllowed env e l := by
  rcases h with h | ⟨d, -, ⟨h, -⟩ | ⟨m, -, h⟩ | ⟨m, -, h⟩⟩
  · exact h
  all_goals
    cases l with
    | merge | restate | teardown | expire | relay => cases h
    | _ => cases hl

/-- The wait for USE-CANDIDATE is over only when its own timer fires. -/
theorem nominationWait_of_expire {premature : Bool} (h : .expire premature ∈ s.allowed H env e) :
    ∃ gen, e = .task (.nominationWait gen) ∧ .nominationWait gen ∈ s.queue ∧
      s.nominationWaitGen = gen ∧ premature = s.checksUnfinished := by
  have h := eventAllowed_of_isLocal h rfl
  cases e with
  | task k =>
    obtain ⟨hq, hk⟩ := h
    cases k with
    | nominationWait gen => exact ⟨gen, rfl, hq, hk.1, hk.2.2⟩
    | _ => exact hk.elim
  | _ => exact h.elim

theorem step_nominationWait {gen : ℕ} :
    s.step H env (.task (.nominationWait gen)) = s ∨
      Act env s (some (.dequeue (.nominationWait gen)))
        (s.step H env (.task (.nominationWait gen))) ∨
      (.nominationWait gen ∈ s.queue ∧ s.nominationWaitGen = gen ∧
        Act env (s.dequeue (.nominationWait gen))
          (some (.expire (s.dequeue (.nominationWait gen)).checksUnfinished))
          (s.step H env (.task (.nominationWait gen)))) := by
  simp only [step, runTask, onNominationWaitExpired]
  split_ifs with hq hg hst
  · exact .inr (.inl (.dequeue s _))
  · exact .inr (.inr ⟨hq, hg, .expire _ hst⟩)
  · exact .inr (.inl (.dequeue s _))
  · exact .inl rfl

theorem step_cfg (H : Hmac) (env : Env) (s : Session) (e : Event) : (s.step H env e).cfg = s.cfg :=
  (step_steps H env s e).invariant (I := fun u => u.cfg = s.cfg)
    (fun _ hstep hu => (act_cfg hstep).1.trans hu) rfl

/-! ### Properties of all pairs -/

/-- A property of pairs that survives what happens to a pair of the list. -/
structure PairStable (P : CheckPair → Prop) : Prop where
  evolves : ∀ {p q : CheckPair}, CheckPair.Evolves p q → P p → P q
  flag : ∀ {p : CheckPair}, P p → P { p with nomineeCheckSent := true }
  succeed : ∀ {p : CheckPair}, P p → P { p with valid := true, state := .succeeded }
  mark : ∀ {p : CheckPair}, P p → P { p with
    state := if p.state = .frozen then .waiting else p.state
    pendingNomination := true }
  clear : ∀ {p : CheckPair}, P p → P { p with pendingNomination := false }

/-- A property of pairs that nothing the session does to its check list breaks. -/
structure PairInvariant (env : Env) (P : CheckPair → Prop) : Prop extends PairStable P where
  fresh : ∀ {p : CheckPair}, p.Fresh → p.state = .waiting ∨ p.state = .frozen → P p
  trigger : ∀ (s : Session) (l rem : Candidate), P (s.triggeredPair env l rem)

namespace PairStable

variable {P : CheckPair → Prop} {ps : List CheckPair}

theorem modify {f : CheckPair → CheckPair} (hf : ∀ {p : CheckPair}, P p → P (f p)) (i : ℕ)
    (h : ∀ p ∈ ps, P p) : ∀ p ∈ ps.modify i f, P p := by
  intro p hp
  rcases mem_modify hp with hp | ⟨q, hq, rfl⟩
  exacts [h p hp, hf (h q (List.mem_of_getElem? hq))]

theorem forall₂ (hP : PairStable P) {ps qs : List CheckPair}
    (he : List.Forall₂ CheckPair.Evolves ps qs) (h : ∀ p ∈ ps, P p) : ∀ q ∈ qs, P q := by
  intro q hq
  obtain ⟨p, hp, hpq⟩ := exists_left_of_mem he hq
  exact hP.evolves hpq (h p hp)

/-- What a rebuild and a triggered check put on the list has to have the property. -/
theorem act (hP : PairStable P) {l : Option Label} (h : Act env s l t)
    (hb : l = some .rebuild → ∀ p ∈ (s.buildCheckList env).checkList, P p)
    (ht : ∀ loc rem, rem.type = .prflx → P (s.triggeredPair env loc rem))
    (hs : ∀ p ∈ s.checkList, P p) : ∀ p ∈ t.checkList, P p := by
  have hreset (u : Session) : ∀ p ∈ (u.reset env).checkList, P p := by
    obtain ⟨n, -, hc⟩ := reset_core env u
    rw [show (u.reset env).checkList = [] from congrArg Core.checkList hc]
    simp
  cases h with
  | quiet h | work h | release h | deliver h | turnInput h => rwa [h.checkList]
  | forget => simp [forgetRemote]
  | rebuild => exact hb rfl
  | check i | liteCheck i => exact hP.forall₂ (sendCheck_scheduled env s i).checkList hs
  | repaint ps h => exact hP.forall₂ (h.imp fun _ _ => .of_repaints) hs
  | pick =>
    unfold pickNominee
    split
    · exact hs
    · exact hP.forall₂ (sendCheck_scheduled env _ _).checkList (modify hP.flag _ hs)
  | succeed i p =>
    exact hP.forall₂ ((CheckPair.unfreezeSiblings_repaints _ _ _).imp fun _ _ => .of_repaints)
      (modify hP.succeed i hs)
  | respond | reject =>
    rwa [show (reply _ _ _ _ s).checkList = _ from congrArg Core.checkList (reply_core _ _ _ _ s)]
  | defer i => exact modify hP.mark i hs
  | trigger loc rem hr =>
    intro p hp
    rcases List.mem_append.mp hp with hp | hp
    · exact hs p hp
    · rw [List.mem_singleton.mp hp]
      exact ht loc rem hr
  | nominateDeferred i => exact modify hP.clear i hs
  | restart => exact hreset s
  | autoRestart => exact hreset _
  | _ => exact hs

end PairStable

namespace PairInvariant

variable {P : CheckPair → Prop}

theorem act (hP : PairInvariant env P) {l : Option Label} (h : Act env s l t)
    (hs : ∀ p ∈ s.checkList, P p) : ∀ p ∈ t.checkList, P p := by
  refine hP.toPairStable.act h (fun _ p hp => ?_) (fun loc rem _ => hP.trigger s loc rem) hs
  obtain ⟨hf, hst⟩ := buildCheckList_fresh env s hp
  exact hP.fresh hf hst

theorem reachable (hP : PairInvariant env P) (h : Reachable H env s) : ∀ p ∈ s.checkList, P p := by
  obtain ⟨cfg, w, controlling, tiebreaker, es, rfl⟩ := h
  exact run_invariant (I := fun u => ∀ p ∈ u.checkList, P p)
    (fun s e hs => (step_steps H env s e).invariant (I := fun u => ∀ p ∈ u.checkList, P p)
      (fun _ hact hu => hP.act hact hu) hs) (by simp [create]) es

end PairInvariant

end Session

end LinkIce
