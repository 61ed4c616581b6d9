import LinkIce.Session.GatherPaths

/-! Paths of STUN and TURN gathering, restart, consent and nomination. -/
namespace LinkIce
open Stun List

namespace Session

variable {env : Env} {A : Set Label} {s t : Session} {net : Inet} {tx : TransportType}
  {m : StunMessage} {k : TurnClient} {ip : Bytes} {c : Candidate} {mapped : MappedAddress}
  {txn : TransactionId} {cfg : TurnConfig}

theorem readyToCheck_congr (h : Works Effect.isQuiet s t) : t.readyToCheck ↔ s.readyToCheck := by
  rw [readyToCheck, readyToCheck, h.state, h.remoteCandidates]

def probesNobody (env : Env) (s : Session) : Prop :=
  (probeServers env false { s with pendingStunProbes := [] }).pendingStunProbes = []

theorem startMultiStunProbes_steps (hw : .work ∈ A) (hb : .publish ∈ A)
    (hr : s.probesNobody env → s.readyToCheck →
      (probeServers env false { s with pendingStunProbes := [] }).leaveGathering.starts env ⊆ A) :
    Steps env A s (s.startMultiStunProbes env) := by
  have hq : Quiet s (probeServers env false { s with pendingStunProbes := [] }) :=
    Keeps.after (probeServers_quiet env _ false) (.silent rfl le_rfl)
  refine (steps_quiet hq).trans ?_
  unfold startMultiStunProbes
  dsimp only
  split_ifs with hp
  · exact onGatheringComplete_steps hw hb fun hc => hr hp ((readyToCheck_congr hq.toWorks).mp hc)
  · exact steps_work (armGatherTimer_works _) (armGatherTimer_stays _) hw

theorem stunProbes_steps (hw : .work ∈ A) (hb : .publish ∈ A)
    (hr : s.probesNobody env → s.readyToCheck →
      (probeServers env false { s with pendingStunProbes := [] }).leaveGathering.starts env ⊆ A) :
    Steps env A s (s.stunProbes env) :=
  (startMultiStunProbes_steps hw hb hr).trans (steps_quiet (gatherTcpServerReflexive_quiet env _))

theorem onGatherTimeout_steps (hw : .work ∈ A) (hb : .publish ∈ A)
    (hr : s.readyToCheck → s.leaveGathering.starts env ⊆ A) :
    Steps env A s (s.onGatherTimeout env) :=
  Path.after (onGatheringComplete_steps hw hb hr) (steps_quiet (.silent rfl le_rfl))

def settleStun (s : Session) : Session :=
  ({ s with gatherGen := s.gatherGen + 1, stunGathered := true } : Session).leaveGathering

theorem onFirstSrflx_steps (hw : .work ∈ A) (hb : .publish ∈ A)
    (hr : s.stunGathered = false → s.turnGathering = false → s.readyToCheck →
      s.settleStun.starts env ⊆ A) :
    Steps env A s (s.onFirstSrflx env) := by
  unfold onFirstSrflx
  split
  · exact .refl s
  · rename_i hg
    have hset : Steps env A s { s with gatherGen := s.gatherGen + 1, stunGathered := true } :=
      Path.after (.visible (.gatherFlags _ true s.turnGathering s.turnServers s.turnAttemptIdx) hw)
        (steps_outdated (t := { s with gatherGen := s.gatherGen + 1 }) rfl le_rfl hw)
    refine hset.trans ?_
    dsimp only
    split_ifs with ht
    · exact steps_work (armGatherFallback_works _) (armGatherFallback_stays _) hw
    · exact onGatheringComplete_steps hw hb fun hc => hr (by simpa using hg) (by simpa using ht) hc

def gatherResponseStartsChecks (s : Session) (m : StunMessage) : Prop :=
  m.xorMapped.isSome = true ∧ m.txnId ∈ s.pendingStunProbes ∧ s.stunGathered = false ∧
    s.turnGathering = false ∧ s.readyToCheck

def learnSrflx (env : Env) (m : StunMessage) (tx : TransportType) (s : Session) : Session :=
  let c := srflxCandidate env.net (m.xorMapped.getD ⟨[], 0⟩) tx
  let s := observeSrflxPort c.port
    { s with pendingStunProbes := s.pendingStunProbes.erase m.txnId }
  if s.localCandidates.any fun e =>
    e.type = .srflx && transportIsTcp e.transport == transportIsTcp c.transport
  then s else s.pushAllowed c .srflx

theorem srflxCandidate_own : (srflxCandidate net mapped tx).Own := by
  unfold srflxCandidate
  cases net.pton4 mapped.ip with
  | _ => exact ⟨⟨by simp, by simp, by simp⟩, ⟨by simp, computePriority_pos (by decide)⟩⟩

theorem srflxCandidate_type : (srflxCandidate net mapped tx).type = .srflx := by
  unfold srflxCandidate
  cases net.pton4 mapped.ip <;> rfl

def gatherResponseLabels (env : Env) (m : StunMessage) (tx : TransportType) (s : Session) :
    Set Label
  | .work | .publish => True
  | .srflx c => m.txnId ∈ s.pendingStunProbes ∧
    ∃ mapped ∈ m.xorMapped, c = srflxCandidate env.net mapped tx
  | .rebuild => s.gatherResponseStartsChecks m
  | .exhaust u => s.gatherResponseStartsChecks m ∧
    .exhaust u ∈ (s.learnSrflx env m tx).settleStun.starts env
  | _ => False

/-- A response that answers a probe brings its candidate and drives the session on. -/
theorem handleGatherResponse_eq :
    s.handleGatherResponse env m tx =
      if m.xorMapped.isSome = true ∧ m.txnId ∈ s.pendingStunProbes then
        (s.learnSrflx env m tx).onFirstSrflx env
      else s := by
  unfold handleGatherResponse learnSrflx
  cases m.xorMapped with
  | none => rfl
  | some mapped =>
    by_cases hp : m.txnId ∈ s.pendingStunProbes
    · rw [if_pos ⟨rfl, hp⟩]
      simp only [hp, not_true_eq_false, if_false, Option.getD_some]
    · rw [if_neg fun h => hp h.2]
      simp only [hp, not_false_eq_true, if_true]

theorem learnSrflx_steps (m : StunMessage) (tx : TransportType)
    (hc : .srflx (srflxCandidate env.net (m.xorMapped.getD ⟨[], 0⟩) tx) ∈ A) :
    Steps env A s (s.learnSrflx env m tx) := by
  unfold learnSrflx
  extract_lets c s₁
  have hq : Quiet s s₁ := Keeps.after (observeSrflxPort_quiet _) (.silent rfl le_rfl)
  have ht : c.type = .srflx := srflxCandidate_type
  refine (steps_quiet hq).trans ?_
  unfold pushAllowed
  split_ifs with hk ha
  · exact .refl _
  · refine .visible (.srflx s₁ c srflxCandidate_own ht ha ?_) hc
    intro e he hs heq
    exact hk (any_eq_true.mpr ⟨e, he, by simp [hs, heq]⟩)
  · exact .refl _

theorem learnSrflx_gathers (env : Env) (m : StunMessage) (tx : TransportType) (s : Session) :
    Gathers s (s.learnSrflx env m tx) := by
  unfold learnSrflx
  extract_lets c s₁
  have hq : Quiet s s₁ := Keeps.after (observeSrflxPort_quiet _) (.silent rfl le_rfl)
  refine (Gathers.of_quiet hq).trans ?_
  split_ifs
  exacts [.refl _, pushAllowed_gathers]

private theorem learnSrflx_turnGathering :
    (s.learnSrflx env m tx).turnGathering = s.turnGathering := by
  unfold learnSrflx
  extract_lets c s₁
  have hq : Quiet s s₁ := Keeps.after (observeSrflxPort_quiet _) (.silent rfl le_rfl)
  unfold pushAllowed
  split_ifs <;> exact hq.turnGathering

theorem handleGatherResponse_steps (hA : s.gatherResponseLabels env m tx ⊆ A) :
    Steps env A s (s.handleGatherResponse env m tx) := by
  have hw : .work ∈ A := hA (a := .work) trivial
  have hb : .publish ∈ A := hA (a := .publish) trivial
  rw [handleGatherResponse_eq]
  split_ifs with h
  · obtain ⟨mapped, hm⟩ := Option.isSome_iff_exists.mp h.1
    have hc := hA (a := .srflx (srflxCandidate env.net (m.xorMapped.getD ⟨[], 0⟩) tx))
      ⟨h.2, mapped, hm, by rw [hm, Option.getD_some]⟩
    have hg := learnSrflx_gathers env m tx s
    refine (learnSrflx_steps m tx hc).trans (onFirstSrflx_steps hw hb fun h₁ h₂ h₃ => ?_)
    have hstarts : s.gatherResponseStartsChecks m := by
      refine ⟨h.1, h.2, ?_, ?_, ?_⟩
      · exact (congrArg Core.stunGathered hg.core).symm.trans h₁
      · rwa [learnSrflx_turnGathering] at h₂
      · rwa [readyToCheck, hg.state, hg.remoteCandidates] at h₃
    exact starts_subset (hA (a := .rebuild) hstarts) fun u hu => hA (a := .exhaust u) ⟨hstarts, hu⟩
  · exact .refl s

/-- Creating permissions for all remote addresses is quiet. -/
theorem createPermissions_quiet (env : Env) (cs : List Candidate) (s : Session) :
    Quiet s (cs.foldl (fun s r => s.turnCreatePermission env (r.addressStr env.net)) s) :=
  .foldl (fun s _ => turnCreatePermission_quiet env s _) cs s

theorem createPermission_mem : ip ∈ (k.createPermission net txn ip).1.permissions := by
  unfold TurnClient.createPermission
  split_ifs with h
  · exact h
  · exact mem_cons_self

private theorem createPermission_subset :
    k.permissions ⊆ (k.createPermission net txn ip).1.permissions := by
  unfold TurnClient.createPermission
  split_ifs
  · exact List.Subset.refl _
  · exact subset_cons_self _ _

theorem createPermissions_cover (env : Env) (cs : List Candidate) (s : Session)
    (hk : k ∈ (cs.foldl (fun s r => s.turnCreatePermission env (r.addressStr env.net)) s).turn) :
    k.coversAll env.net cs = true ∧ ∃ k₀ ∈ s.turn, k₀.permissions ⊆ k.permissions := by
  induction cs generalizing s with
  | nil => exact ⟨rfl, k, hk, List.Subset.refl _⟩
  | cons c cs ih =>
    obtain ⟨hcs, k₁, hk₁, hsub⟩ := ih _ hk
    rw [turnCreatePermission_turn] at hk₁
    obtain ⟨k₀, hk₀, rfl⟩ := Option.map_eq_some_iff.mp hk₁
    have hc := hsub (createPermission_mem)
    refine ⟨?_, k₀, hk₀, List.Subset.trans (createPermission_subset) hsub⟩
    simpa [TurnClient.coversAll, hc] using hcs

theorem emit_pushLocal (e : Effect) (c : Candidate) (s : Session) :
    (s.pushLocal c).emit e = (s.emit e).pushLocal c := rfl

theorem requests_pushLocal (env : Env) (c : Candidate) (k : TurnClient) {outs : List TurnOutput}
    (h : ∀ o ∈ outs, ∃ b, o = .toServer b) (s : Session) :
    (s.pushLocal c).turnOutputs env k outs = (s.turnOutputs env k outs).pushLocal c := by
  induction outs generalizing s with
  | nil => rfl
  | cons o outs ih =>
    obtain ⟨b, rfl⟩ := h o (by simp)
    have hrest : ∀ o ∈ outs, ∃ b, o = .toServer b := fun o ho => h o (by simp [ho])
    rw [turnOutputs, turnOutputs, foldl_cons, foldl_cons]
    rw [turnOutput, emit_pushLocal]
    exact ih hrest _

theorem setTurn_pushLocal (k : Option TurnClient) (c : Candidate) (s : Session) :
    ({ (s.pushLocal c).drawn with turn := k } : Session) =
      ({ s.drawn with turn := k } : Session).pushLocal c := rfl

theorem turnCreatePermission_pushLocal :
    (s.pushLocal c).turnCreatePermission env ip = (s.turnCreatePermission env ip).pushLocal c := by
  have hturn : (s.pushLocal c).turn = s.turn := rfl
  have hdraws : (s.pushLocal c).draws = s.draws := rfl
  unfold turnCreatePermission
  rw [hturn, hdraws]
  cases s.turn with
  | none => rfl
  | some k =>
    dsimp only
    rw [setTurn_pushLocal]
    exact requests_pushLocal env c _ (TurnClient.createPermission_requests) _

theorem createPermissions_pushLocal (env : Env) (c : Candidate) (cs : List Candidate)
    (s : Session) :
    cs.foldl (fun s r => s.turnCreatePermission env (r.addressStr env.net)) (s.pushLocal c) =
      (cs.foldl (fun s r => s.turnCreatePermission env (r.addressStr env.net)) s).pushLocal c := by
  induction cs generalizing s with
  | nil => rfl
  | cons r cs ih => rw [foldl_cons, turnCreatePermission_pushLocal, ih, foldl_cons]

def relayJoinsChecks (s : Session) (c : Candidate) : Prop :=
  candidateAllowed c.type c.family s.cfg.candidateFilter = true ∧ s.remoteCandidates ≠ [] ∧
    (s.state = .checking ∨ (s.state = .gathering ∧ s.stunSettled = true))

theorem foldRelayIntoChecks_steps (hb : .publish ∈ A)
    (hr : s.remoteCandidates ≠ [] → s.state = .checking → s.rechecks env ⊆ A) :
    Steps env A s (s.foldRelayIntoChecks env) := by
  unfold foldRelayIntoChecks
  split
  · rename_i h
    refine (recheck_steps (hr h.1 h.2)).trans ?_
    dsimp only
    split_ifs
    exacts [.refl _, Path.visible (.publish _) hb]
  · exact .refl s

theorem onTurnSettled_idle (h : ¬ (s.stunSettled = true ∧ s.readyToCheck)) :
    (s.onTurnSettled env).remoteCandidates = s.remoteCandidates ∧
      ((s.onTurnSettled env).state = .checking ↔ s.state = .checking) := by
  unfold onTurnSettled onGatheringComplete
  dsimp only
  split_ifs with hs hg hc
  · exact absurd ⟨hs, hg, hc⟩ h
  · have hg' : s.state = .gathering := hg
    exact ⟨rfl, iff_of_false (by simp [onGathered, emit, setState]) (by simp [hg'])⟩
  · exact ⟨rfl, Iff.rfl⟩
  · exact ⟨rfl, Iff.rfl⟩

def learnRelay (env : Env) (c : Candidate) (s : Session) : Session :=
  let s := ({ s with turnAllocateGen := s.turnAllocateGen + 1 } : Session).pushLocal c
  (s.remoteCandidates.foldl (fun s r => s.turnCreatePermission env (r.addressStr env.net))
    s).armTurnBackups

/-- What a new relay candidate may lead to: it can end the gathering phase and it joins a
running list. -/
def relayStarts (env : Env) (c : Candidate) (s : Session) : Set Label :=
  (s.learnRelay env c).settleTurn.starts env ∪ ((s.learnRelay env c).onTurnSettled env).rechecks env

theorem relayStarts_checkLabels : s.relayStarts env c ⊆ checkLabels :=
  Set.union_subset starts_checkLabels rechecks_checkLabels

theorem learnRelay_steps (c : Candidate) (hw : .work ∈ A) (hc : .relay c ∈ A)
    (ha : candidateAllowed c.type c.family s.cfg.candidateFilter = true) :
    Steps env A s (s.learnRelay env c) := by
  let s₁ : Session := { s with turnAllocateGen := s.turnAllocateGen + 1 }
  have h₁ : Steps env A s s₁ := steps_outdated rfl le_rfl hw
  have hq := createPermissions_quiet env s₁.remoteCandidates s₁
  have heq := createPermissions_pushLocal env c s₁.remoteCandidates s₁
  refine h₁.trans (Path.after (steps_quiet (armTurnBackups_quiet _)) ?_)
  refine Path.trans ?_ (.of_eq heq.symm)
  refine (steps_quiet hq).trans (.visible (.relay _ c ?_ fun k hk => ?_) hc)
  · rwa [hq.cfg]
  · rw [hq.remoteCandidates]
    exact (createPermissions_cover env _ _ hk).1

theorem learnRelay_frame :
    (s.learnRelay env c).state = s.state ∧
      (s.learnRelay env c).remoteCandidates = s.remoteCandidates ∧
      (s.learnRelay env c).stunSettled = s.stunSettled := by
  let s₂ := ({ s with turnAllocateGen := s.turnAllocateGen + 1 } : Session).pushLocal c
  have hq : Quiet s₂ (s.learnRelay env c) :=
    (createPermissions_quiet env _ s₂).trans (armTurnBackups_quiet _)
  refine ⟨hq.state, hq.remoteCandidates, ?_⟩
  rw [stunSettled, stunSettled, hq.cfg, hq.stunGathered]
  rfl

theorem onTurnAllocated_eq :
    s.onTurnAllocated env c =
      if candidateAllowed c.type c.family s.cfg.candidateFilter = true then
        ((s.learnRelay env c).onTurnSettled env).foldRelayIntoChecks env
      else { s with turnAllocateGen := s.turnAllocateGen + 1 } := by
  unfold onTurnAllocated
  dsimp only
  split_ifs with h₁ h₂ h₂
  · simp [h₂] at h₁
  · rfl
  · rfl
  · simp [h₂] at h₁

theorem onTurnAllocated_steps (hw : .work ∈ A) (hb : .publish ∈ A)
    (hc : .relay c ∈ A) (hr : s.relayJoinsChecks c → s.relayStarts env c ⊆ A) :
    Steps env A s (s.onTurnAllocated env c) := by
  rw [onTurnAllocated_eq]
  split_ifs with ha
  · obtain ⟨hst, hrem, hset⟩ := learnRelay_frame
    have hset' : (s.learnRelay env c).stunSettled = true → (s.learnRelay env c).readyToCheck →
        s.relayStarts env c ⊆ A := by
      intro h₁ ⟨h₂, h₃⟩
      exact hr ⟨ha, hrem ▸ h₃, .inr ⟨hst ▸ h₂, hset ▸ h₁⟩⟩
    refine (learnRelay_steps c hw hc ha).trans ?_
    refine (onTurnSettled_steps hw hb fun h₁ h₂ => Set.subset_union_left.trans (hset' h₁ h₂)).trans
      (foldRelayIntoChecks_steps hb fun h₁ h₂ => ?_)
    suffices h : s.relayStarts env c ⊆ A from Set.subset_union_right.trans h
    by_cases h : (s.learnRelay env c).stunSettled = true ∧ (s.learnRelay env c).readyToCheck
    · exact hset' h.1 h.2
    · obtain ⟨hr', hc⟩ := onTurnSettled_idle h
      have hne : s.remoteCandidates ≠ [] := by
        rw [← hrem, ← hr']
        exact h₁
      exact hr ⟨ha, hne, .inl (hst ▸ hc.mp h₂)⟩
  · exact steps_outdated rfl le_rfl hw

def turnExhausted (s : Session) (idx : ℕ) : Prop :=
  s.turnServers[idx]? = none ∧ s.stunSettled = true ∧ s.readyToCheck

def giveUpTurn (env : Env) (s : Session) : Session :=
  (dropTurn env { s with turnAllocateGen := s.turnAllocateGen + 1 }).settleTurn

theorem onTurnAllocateTimeout_steps (hw : s.turnAllocated = false → .work ∈ A)
    (hd : s.turnAllocated = false → .release ∈ A) (hb : s.turnAllocated = false → .publish ∈ A)
    (hr : s.turnAllocated = false → s.turnExhausted (s.turnAttemptIdx + 1) →
      (giveUpTurn env { s with turnAttemptIdx := s.turnAttemptIdx + 1 }).starts env ⊆ A) :
    Steps env A s (s.onTurnAllocateTimeout env) := by
  unfold onTurnAllocateTimeout
  split
  · exact .refl s
  · rename_i h
    have ha : s.turnAllocated = false := by simpa using h
    refine (Path.visible (.gatherFlags s s.stunGathered s.turnGathering s.turnServers
      (s.turnAttemptIdx + 1)) (hw ha)).trans ?_
    exact tryNextTurnAttempt_steps (hw ha) (hd ha) (fun _ => hb ha)
      fun h₁ h₂ h₃ => hr ha ⟨h₁, h₂, h₃⟩

def failoverRechecks (s : Session) : Prop :=
  (s.remoteCandidates ≠ [] ∧ s.state = .checking) ∨ s.state = .connected

def failoverStarts (env : Env) (s : Session) : Set Label :=
  (if s.state = .connected then s.setState .checking else s).rechecks env

theorem recheckAfterFailover_steps (hr : s.failoverRechecks → s.failoverStarts env ⊆ A) :
    Steps env A s (s.recheckAfterFailover env) := by
  unfold failoverStarts at hr
  unfold recheckAfterFailover
  split_ifs with h hc
  · rw [if_neg (by simp [h.2])] at hr
    exact recheck_steps (hr (.inl h))
  · rw [if_pos hc] at hr
    exact (Path.visible (.startChecking s (.inr (.inr hc)))
      (hr (.inr hc) rebuild_mem_rechecks)).trans
      (recheck_steps (hr (.inr hc)))
  · exact .refl s

def adoptBackup (env : Env) (client : TurnClient) (cfg : TurnConfig) (s : Session) : Session :=
  let s := (s.drawn.stampFailover (env.clock s.draws)).turnClose env
  let s := s.locked fun s =>
    { s with localCandidates := s.localCandidates.filter (·.type ≠ .relay) }
  let c := relayCandidate env.net client.relayed
  pushAllowed c c.type { s with turn := some client, turnCfg := cfg }

/-- The backup has not asked for the permissions that the checks through it will need. -/
def takeoverStrays (env : Env) (client : TurnClient) (s : Session) : Bool :=
  let c := relayCandidate env.net client.relayed
  !(s.checkList.all (client.coversPair env.net) &&
    (!candidateAllowed c.type c.family s.cfg.candidateFilter ||
      client.coversAll env.net s.remoteCandidates))

theorem takeoverLocals_relay (env : Env) (client : TurnClient) (s : Session) :
    (s.takeoverLocals env client).any (·.type = .relay) =
      candidateAllowed (relayCandidate env.net client.relayed).type
        (relayCandidate env.net client.relayed).family s.cfg.candidateFilter := by
  have hold : (s.localCandidates.filter (·.type ≠ .relay)).any (·.type = .relay) = false := by
    simp [any_eq_false]
  have hnew : (relayCandidate env.net client.relayed).type = .relay := setAddress_type
  unfold takeoverLocals
  dsimp only
  split_ifs with ha
  · rw [any_append, hold, ha]
    simp [hnew]
  · rw [hold]
    simpa using ha

private theorem adoptBackup_eq (env : Env) (client : TurnClient) (cfg : TurnConfig) (s : Session) :
    s.adoptBackup env client cfg =
      let s₁ := (s.drawn.stampFailover (env.clock s.draws)).turnClose env
      { s₁ with
        turn := some client
        turnCfg := cfg
        localCandidates := s₁.takeoverLocals env client
        mu := s₁.mu.lock.unlock } := by
  unfold adoptBackup takeoverLocals pushAllowed pushLocal locked
  dsimp only
  generalize (s.drawn.stampFailover (env.clock s.draws)).turnClose env = u
  split_ifs
  · rw [Mutex.section_section]
  · rfl

theorem promoteTurnBackup_steps (client : TurnClient) (cfg : TurnConfig) (hd : .release ∈ A)
    (ht : .takeover (s.takeoverStrays env client) ∈ A)
    (hr : s.failoverRechecks → (s.adoptBackup env client cfg).failoverStarts env ⊆ A) :
    Steps env A s (s.promoteTurnBackup env client cfg) := by
  have h₀ : Quiet s (s.drawn.stampFailover (env.clock s.draws)) := .silent rfl (Nat.le_succ _)
  have hq : Works Effect.isQuiet s ((s.drawn.stampFailover (env.clock s.draws)).turnClose env) :=
    h₀.toWorks.trans (turnClose_works env _)
  have hadopt := adoptBackup_eq env client cfg s
  change Steps env A s ((s.adoptBackup env client cfg).recheckAfterFailover env)
  dsimp only at hadopt
  generalize (s.drawn.stampFailover (env.clock s.draws)).turnClose env = s₁ at hq hadopt
  have hact : Act env s₁ (some (.takeover (s.takeoverStrays env client)))
      (s.adoptBackup env client cfg) := by
    have hstrays : s.takeoverStrays env client =
        !({ s₁ with localCandidates := s₁.takeoverLocals env client } : Session).coveredBy env
          client := by
      unfold takeoverStrays coveredBy hasRelayCandidate
      dsimp only
      rw [takeoverLocals_relay, hq.checkList, hq.remoteCandidates, hq.cfg]
    rw [hadopt, hstrays]
    exact .takeover s₁ client cfg
  have hstate : (s.adoptBackup env client cfg).state = s.state := by
    rw [hadopt]
    exact hq.state
  have hremote : (s.adoptBackup env client cfg).remoteCandidates = s.remoteCandidates := by
    rw [hadopt]
    exact hq.remoteCandidates
  refine (Path.visible (.release hq) hd).trans ((Path.visible hact ht).trans
    (recheckAfterFailover_steps fun h => hr ?_))
  rwa [failoverRechecks, hstate, hremote] at h

def backupTakesOver (env : Env) (s : Session) : Prop :=
  s.turnBackupProbe.isSome = true ∧
    ¬ (s.turn.any (·.isHealthy) = true ∨
      (if s.turnLastFailover = 0 then s.cfg.turnFailoverMinIntervalS
        else (env.clock s.draws - s.turnLastFailover) / 10 ^ 6) < s.cfg.turnFailoverMinIntervalS)

def takeoverStarts (env : Env) (cfg : TurnConfig) (s : Session) : Set Label :=
  { l | ∃ probe ∈ s.turnBackupProbe,
    l ∈ (adoptBackup env probe cfg { s.drawn with turnBackupProbe := none }).failoverStarts env }

theorem takeoverStarts_checkLabels : s.takeoverStarts env cfg ⊆ checkLabels := by
  rintro l ⟨probe, -, hl⟩
  exact rechecks_checkLabels hl

theorem onBackupAllocated_steps (hd : s.backupTakesOver env → .release ∈ A)
    (ht : s.backupTakesOver env → ∀ probe ∈ s.turnBackupProbe,
      .takeover (s.takeoverStrays env probe) ∈ A)
    (hr : s.backupTakesOver env → s.failoverRechecks → s.takeoverStarts env cfg ⊆ A) :
    Steps env A s (s.onBackupAllocated env cfg) := by
  unfold onBackupAllocated
  split
  · exact .refl s
  · rename_i probe hp
    extract_lets since s₁
    have hq : Quiet s s₁ := .drawn s
    refine (steps_quiet hq).trans ?_
    split_ifs with h
    · exact steps_quiet (dropTurnBackupProbe_quiet env _)
    · have hover : s.backupTakesOver env := ⟨by simp [hp], h⟩
      refine Path.after (promoteTurnBackup_steps probe cfg (hd hover) (ht hover probe hp)
        fun hf l hl => ?_) (steps_quiet (.silent rfl le_rfl))
      exact hr hover hf ⟨probe, hp, hl⟩

theorem closeTeardown_steps (hd : .release ∈ A) (h : .teardown ∈ A) :
    Steps env A s (s.closeTeardown env) := by
  have hc : Works Effect.isQuiet { s with nominationWaitArmed := false } s.cancelTimers :=
    Keeps.outdates rfl le_rfl
  have ht := (turnClose_works env s.cancelTimers).trans (turnBackupProbeClose_quiet env _).toWorks
  have hr := ht.trans ((unregisterMdns_quiet _).trans (releasePortmapMapping_quiet _)).toWorks
  exact ((Path.silent (.disarmWait s)).trans (.visible (.release (hc.trans hr)) hd)).trans
    (Path.visible (.teardown _) h)

theorem restart_steps (hr : s.state ≠ .failed → .restart ∈ A)
    (hg : s.state ≠ .failed → .gather false ∈ A) (hA : s.state ≠ .failed → gatherLabels ⊆ A) :
    Steps env A s (s.restart env) := by
  unfold restart
  split
  · exact .refl s
  · rename_i h
    refine (Path.visible (.restart s h) (hr h)).trans (gather_steps (hg h) (hA h) fun hc => ?_)
    exact absurd rfl hc.2.2

end Session

end LinkIce
