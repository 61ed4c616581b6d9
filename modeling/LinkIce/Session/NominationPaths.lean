import LinkIce.Session.LifecyclePaths

/-! Paths of consent, nomination and path-MTU probing. -/
namespace LinkIce
open Stun

namespace Session

variable {env : Env} {A : Set Label} {s t : Session} {size : ℕ}

/-- The next keepalive finds too many of its predecessors unanswered. -/
def losesConsent (s : Session) : Prop :=
  s.state = .connected ∧ s.cfg.liteMode = false ∧ s.cfg.consentMaxFailures ≤ s.consentMissed + 1

/-- `A` permits what a keepalive may do in `s`. -/
structure KeepaliveLicence (A : Set Label) (s : Session) : Prop where
  refresh : s.losesConsent → .refresh ∈ A
  recover : s.losesConsent → s.consentRecoveryAttempts < s.cfg.consentMaxRecovery → .rebuild ∈ A
  restart : s.losesConsent → s.cfg.consentMaxRecovery ≤ s.consentRecoveryAttempts →
    Label.restart ∈ A ∧ Label.gather false ∈ A ∧ gatherLabels ⊆ A
  lose : s.losesConsent → s.cfg.consentMaxRecovery ≤ s.consentRecoveryAttempts → .loseConsent ∈ A

theorem losesConsent_congr (hc : t.core = s.core) : t.losesConsent ↔ s.losesConsent := by
  rw [losesConsent, losesConsent, show t.state = s.state from congrArg Core.state hc,
    show t.cfg = s.cfg from congrArg Core.cfg hc,
    show t.consentMissed = s.consentMissed from congrArg Core.consentMissed hc]

theorem KeepaliveLicence.congr (h : KeepaliveLicence A s) (hc : t.core = s.core) :
    KeepaliveLicence A t := by
  have hl := losesConsent_congr hc
  have hcfg : t.cfg = s.cfg := congrArg Core.cfg hc
  have hrec : t.consentRecoveryAttempts = s.consentRecoveryAttempts :=
    congrArg Core.consentRecoveryAttempts hc
  refine ⟨?_, ?_, ?_, ?_⟩
  all_goals rw [hl]
  · exact h.refresh
  all_goals rw [hcfg, hrec]
  exacts [h.recover, h.restart, h.lose]

theorem notifyConsentLoss_steps (hs : s.state = .connected)
    (hr : s.cfg.consentMaxRecovery ≤ s.consentRecoveryAttempts)
    (hf : .refresh ∈ A) (hA : Label.restart ∈ A ∧ Label.gather false ∈ A ∧ gatherLabels ⊆ A)
    (hl : .loseConsent ∈ A) :
    Steps env A s (s.notifyConsentLoss env) := by
  unfold notifyConsentLoss
  split
  · rename_i ha
    dsimp only
    split_ifs with hb
    · rw [restart, if_neg (by simp [countAutoRestart, emit, drawn, hs])]
      refine (steps_quiet (.drawn s)).trans ?_
      refine (Path.visible (.autoRestart s.drawn (env.clock s.draws) hs hr ha.2) hA.1).trans ?_
      exact gather_steps hA.2.1 hA.2.2 fun hc => absurd rfl hc.2.2
    · exact Path.after (.visible (.refresh s.drawn) hf) (steps_quiet (.drawn s))
  · rename_i ha
    exact .visible (.loseConsent s hs hr ha) hl

def recovering (s : Session) : Session :=
  ({ s.emit .consentLost with
    consentRecoveryAttempts := s.consentRecoveryAttempts + 1 } : Session).refreshConsent

/-- The session at the keepalive that finds consent lost. -/
def withoutConsent (s : Session) : Session :=
  ({ s with consentMissed := s.consentMissed + 1 } : Session).emit .consentLost

theorem onKeepalive_lost (h : s.losesConsent) :
    s.onKeepalive env = s.withoutConsent.onConsentLost env := by
  obtain ⟨hst, hlite, hmiss⟩ := h
  unfold onKeepalive
  rw [if_neg (by simp [hst, hlite])]
  exact if_pos hmiss

theorem noteKeepalive_steps (hl : s.cfg.liteMode = false)
    (h : s.consentMissed + 1 < s.cfg.consentMaxFailures) :
    Steps env A s (noteKeepalive env { s with consentMissed := s.consentMissed + 1 }) := by
  unfold noteKeepalive
  split
  · exact .silent (.unsent s)
  · exact .silent (.keepalive s _ hl h)

theorem onKeepalive_steps (h : KeepaliveLicence A s)
    (hx : s.losesConsent → s.consentRecoveryAttempts < s.cfg.consentMaxRecovery →
      ∀ u, .exhaust u ∈ s.recovering.starts env → .exhaust u ∈ A) :
    Steps env A s (s.onKeepalive env) := by
  unfold onKeepalive
  split
  · exact .refl s
  · rename_i hs
    simp only [ne_eq, not_or, not_not, Bool.not_eq_true] at hs
    dsimp only
    split
    · rename_i hm
      have hl : s.losesConsent := ⟨hs.1, hs.2, hm⟩
      refine (Path.silent (.lapse s hs.1)).trans ?_
      unfold onConsentLost
      split
      · rename_i hr
        refine (Path.visible (.recover _ hs.1 hr) (h.refresh hl)).trans ?_
        exact beginChecks_rebuilt_steps (h.recover hl hr) (hx hl hr)
      · rename_i hr
        have hr' := not_lt.mp hr
        exact notifyConsentLoss_steps hs.1 hr' (h.refresh hl) (h.restart hl hr') (h.lose hl hr')
    · rename_i hm
      refine (noteKeepalive_steps hs.2 (not_le.mp hm)).trans (steps_quiet ?_)
      exact (sendKeepalive_quiet env _).trans (armKeepaliveTimer_quiet _)

theorem sendPmtuProbe_steps (hs : s.state = .connected) :
    Steps env A s (s.sendPmtuProbe env size) := by
  unfold sendPmtuProbe
  split
  · exact .refl s
  · exact (Path.silent (.probe s s.nominatedCid size hs)).trans
      (steps_quiet (armPmtuTimer_quiet _))

theorem noteMtuProbe_steps (hs : s.state = .connected) :
    Steps env A s (s.noteMtuProbe env size) := by
  unfold noteMtuProbe
  split
  · exact .refl s
  · have hp : Steps env A s (s.emit (.mtuProbeSent (env.txnId s.draws))) :=
      .silent (.probing s _ hs)
    exact hp.trans (steps_quiet (.silent rfl le_rfl))

theorem noteMtuProbe_core : (s.noteMtuProbe env size).core = s.core := by
  unfold noteMtuProbe
  split <;> rfl

theorem startPathMtuProbe_steps : Steps env A s (s.startPathMtuProbe env) := by
  unfold startPathMtuProbe
  split
  · exact .refl s
  · split
    · exact .refl s
    · rename_i hs
      simp only [ne_eq, not_or, not_not] at hs
      split
      · exact steps_quiet (.silent rfl le_rfl)
      · rename_i size _
        have hst : (s.noteMtuProbe env size).state = .connected :=
          (congrArg Core.state (noteMtuProbe_core)).trans hs.1
        exact (noteMtuProbe_steps hs.1).trans (sendPmtuProbe_steps hst)

theorem advancePmtu_steps {f : PathMtuProbe → PathMtuProbe} :
    Steps env A s (s.advancePmtu env f) := by
  unfold advancePmtu
  split
  · exact .refl s
  · dsimp only
    split
    · exact steps_quiet (.silent rfl le_rfl)
    · exact Path.after startPathMtuProbe_steps (steps_quiet (.silent rfl le_rfl))

theorem onPathMtuProbeTimeout_steps : Steps env A s (s.onPathMtuProbeTimeout env) := by
  unfold onPathMtuProbeTimeout
  split
  · exact .refl s
  · exact Path.after (advancePmtu_steps) (steps_quiet (.silent rfl le_rfl))

theorem onPathMtuAck_steps (hf : .refresh ∈ A) : Steps env A s (s.onPathMtuAck env) := by
  refine Path.after (.visible (.refresh _) hf) ?_
  exact Path.after (advancePmtu_steps) (steps_quiet (.silent rfl le_rfl))

theorem beginPathMtu_steps : Steps env A s (s.beginPathMtu env) := by
  unfold beginPathMtu
  split
  · exact Path.after startPathMtuProbe_steps (steps_quiet (.silent rfl le_rfl))
  · exact .refl s

theorem afterNomination_eq (env : Env) (s : Session) (ep : Endpoint) (relay : Bool) :
    ∃ t, Quiet s t ∧ s.afterNomination env ep relay =
      ((t.emit (.onConnected ep)).onKeepalive env).beginPathMtu env := by
  refine ⟨_, ?_, rfl⟩
  refine Keeps.trans ?_ (flushPendingAppData_quiet env _)
  split_ifs
  exacts [turnBindChannel_quiet env s ep, .refl s]

theorem afterNomination_steps {ep : Endpoint} {relay : Bool} (hs : s.state = .connected)
    (h : KeepaliveLicence A s)
    (hx : s.losesConsent → s.consentRecoveryAttempts < s.cfg.consentMaxRecovery →
      ∀ u : Session, u.Untried → u.remoteEndOfCandidates = s.remoteEndOfCandidates →
        .exhaust u ∈ A) :
    Steps env A s (s.afterNomination env ep relay) := by
  obtain ⟨t, hq, he⟩ := afterNomination_eq env s ep relay
  rw [he]
  refine (steps_quiet hq).trans ?_
  refine (Path.silent (.announce _ ep (hq.state.trans hs))).trans ?_
  have hc := (emit_core _ (.onConnected ep)).trans hq.core
  refine (onKeepalive_steps (h.congr hc) fun hl hr u hu => ?_).trans beginPathMtu_steps
  obtain ⟨hun, heoc⟩ := starts_untried hu
  refine hx ?_ ?_ u hun (heoc.trans (congrArg Core.remoteEndOfCandidates hc))
  · exact (losesConsent_congr hc).mp hl
  · exact lt_of_eq_of_lt (congrArg Core.consentRecoveryAttempts hc).symm
      (hr.trans_eq (congrArg (fun c => c.cfg.consentMaxRecovery) hc))

/-- What a nomination needs besides its own licence: with a limit of one unanswered
keepalive the first keepalive already loses consent. -/
structure NominationLicence (A : Set Label) (s : Session) : Prop where
  refresh : s.cfg.liteMode = false → s.cfg.consentMaxFailures ≤ 1 → .refresh ∈ A
  recover : s.cfg.liteMode = false → s.cfg.consentMaxFailures ≤ 1 →
    0 < s.cfg.consentMaxRecovery → .rebuild ∈ A
  exhaust : s.cfg.liteMode = false → s.cfg.consentMaxFailures ≤ 1 →
    0 < s.cfg.consentMaxRecovery → ∀ u : Session, u.Untried →
      u.remoteEndOfCandidates = s.remoteEndOfCandidates → .exhaust u ∈ A
  restart : s.cfg.liteMode = false → s.cfg.consentMaxFailures ≤ 1 →
    s.cfg.consentMaxRecovery = 0 →
      Label.restart ∈ A ∧ Label.gather false ∈ A ∧ gatherLabels ⊆ A ∧ Label.loseConsent ∈ A

theorem NominationLicence.univ (s : Session) : NominationLicence Set.univ s where
  refresh _ _ := Set.mem_univ _
  recover _ _ _ := Set.mem_univ _
  exhaust _ _ _ _ _ _ := Set.mem_univ _
  restart _ _ _ := ⟨Set.mem_univ _, Set.mem_univ _, Set.subset_univ _, Set.mem_univ _⟩

theorem NominationLicence.keepalive (h : NominationLicence A s) (origin : NominationOrigin)
    (ep : Endpoint) (relay : Bool) (cid : Cid) (tx : TransportType) :
    KeepaliveLicence A (s.commitNomination origin ep relay cid tx) where
  refresh hl := h.refresh hl.2.1 hl.2.2
  recover hl hr := h.recover hl.2.1 hl.2.2 hr
  restart hl hr := by
    obtain ⟨h₁, h₂, h₃, -⟩ := h.restart hl.2.1 hl.2.2 (Nat.le_zero.mp hr)
    exact ⟨h₁, h₂, h₃⟩
  lose hl hr := (h.restart hl.2.1 hl.2.2 (Nat.le_zero.mp hr)).2.2.2

theorem NominationLicence.afterCommit (h : NominationLicence A s) (origin : NominationOrigin)
    (ep : Endpoint) (relay : Bool) (cid : Cid) (tx : TransportType) :
    Steps env A (s.commitNomination origin ep relay cid tx)
      (s.onNominated env origin ep relay cid tx) :=
  afterNomination_steps rfl (h.keepalive origin ep relay cid tx)
    fun hl hr u hu he => h.exhaust hl.2.1 hl.2.2 hr u hu he

theorem NominationLicence.congr (h : NominationLicence A s) (hc : t.cfg = s.cfg)
    (he : t.remoteEndOfCandidates = s.remoteEndOfCandidates) : NominationLicence A t := by
  refine ⟨?_, ?_, ?_, ?_⟩
  all_goals rw [hc]
  · exact h.refresh
  · exact h.recover
  · rw [he]
    exact h.exhaust
  · exact h.restart

end Session

end LinkIce
