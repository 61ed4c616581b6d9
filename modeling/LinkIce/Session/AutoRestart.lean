import LinkIce.Session.Script

/-! The restart policy after consent loss: when it is honoured and how often it acts between
two nominations. -/
namespace LinkIce
open Stun List

def IceConfig.restartsLeft (cfg : IceConfig) (restarts : ℕ) : Bool :=
  cfg.autoRestartOnConsentLoss && decide (restarts < cfg.autoRestartMaxAttempts)

namespace Effect

variable {e : Effect}

/-- Not the failure of a session that lost consent, whose recovery checks have all failed and
which has restarts left. -/
def honoursPolicy (cfg : IceConfig) : Effect → Bool
  | failedBy .consentLoss _ _ _ _ restarts => !cfg.restartsLeft restarts
  | failedBy _ .checking _ ps recoveries restarts =>
    !(cfg.restartsLeft restarts && decide (0 < recoveries) && ps.all (·.state = .failed))
  | _ => true

def restartsSinceNomination : List Effect → ℕ
  | [] => 0
  | nominated .. :: _ => 0
  | onAutoRestart .. :: l => restartsSinceNomination l + 1
  | _ :: l => restartsSinceNomination l

def isUncounted : Effect → Bool
  | nominated .. | onAutoRestart .. => false
  | _ => true

theorem restartsSinceNomination_cons (h : e.isUncounted = true) (l : List Effect) :
    restartsSinceNomination (e :: l) = restartsSinceNomination l := by
  cases e with
  | nominated | onAutoRestart => cases h
  | _ => rfl

theorem isUncounted_of_routine (h : e.isRoutine = true) : e.isUncounted = true := by
  cases e with
  | nominated | onAutoRestart => cases h
  | _ => rfl

end Effect

namespace Session

open Effect

variable {H : Hmac} {env : Env} {A : Set Label} {s t u : Session} {e : Effect} {l : Option Label}

theorem isUncounted_of_sends {p : Payload} (h : sends p e) : e.isUncounted = true := by
  cases e with
  | nominated | onAutoRestart => exact h.elim
  | _ => rfl

/-! ### The counters -/

structure Counted (s : Session) : Prop where
  connected : s.state = .connected →
    s.consentRecoveryAttempts = 0 ∧ s.autoRestartAttempts = 0 ∧ s.autoRestartLast = 0
  recoveries : s.consentRecoveryAttempts ≤ s.cfg.consentMaxRecovery
  restarts : restartsSinceNomination s.log = s.autoRestartAttempts
  bounded : ∀ l, l <:+ s.log → restartsSinceNomination l ≤ s.cfg.autoRestartMaxAttempts

namespace Counted

variable {n : ℕ}

theorem bounded_cons {e : Effect} {log : List Effect}
    (h : ∀ l, l <:+ log → restartsSinceNomination l ≤ n)
    (he : restartsSinceNomination (e :: log) ≤ n) :
    ∀ l, l <:+ e :: log → restartsSinceNomination l ≤ n := by
  intro l hl
  rcases suffix_cons_iff.mp hl with rfl | hl
  exacts [he, h l hl]

theorem of_uncounted (hb : ∀ l, l <:+ s.log → restartsSinceNomination l ≤ n)
    (hlog : Logs (·.isUncounted = true) s t) :
    restartsSinceNomination t.log = restartsSinceNomination s.log ∧
      ∀ l, l <:+ t.log → restartsSinceNomination l ≤ n := by
  obtain ⟨new, hn, hu⟩ := hlog
  rw [hn]
  clear hn
  induction new with
  | nil => exact ⟨rfl, hb⟩
  | cons e new ih =>
    obtain ⟨heq, hle⟩ := ih fun e he => hu e (by simp [he])
    have he := restartsSinceNomination_cons (hu e (by simp)) (new ++ s.log)
    exact ⟨he.trans heq, bounded_cons hle (he.le.trans (hle _ (suffix_refl _)))⟩

theorem step (h : Counted s) (hlog : Logs (·.isUncounted = true) s t) (hcfg : t.cfg = s.cfg)
    (hrestarts : t.autoRestartAttempts = s.autoRestartAttempts)
    (hrec : t.consentRecoveryAttempts ≤ s.cfg.consentMaxRecovery)
    (hconn : t.state = .connected →
      t.consentRecoveryAttempts = 0 ∧ t.autoRestartAttempts = 0 ∧ t.autoRestartLast = 0) :
    Counted t := by
  obtain ⟨hcount, hb⟩ := of_uncounted h.bounded hlog
  exact ⟨hconn, hcfg ▸ hrec, by rw [hcount, hrestarts, h.restarts], hcfg ▸ hb⟩

/-- The state is left for another one than Connected. -/
theorem leave (h : Counted s) (hlog : Logs (·.isUncounted = true) s t) (hcfg : t.cfg = s.cfg)
    (hrestarts : t.autoRestartAttempts = s.autoRestartAttempts)
    (hrec : t.consentRecoveryAttempts ≤ s.cfg.consentMaxRecovery) (hst : t.state ≠ .connected) :
    Counted t :=
  h.step hlog hcfg hrestarts hrec fun hc => absurd hc hst

theorem congr (h : Counted s) (hlog : Logs (·.isUncounted = true) s t) (hcfg : t.cfg = s.cfg)
    (hrestarts : t.autoRestartAttempts = s.autoRestartAttempts)
    (hrec : t.consentRecoveryAttempts = s.consentRecoveryAttempts)
    (hlast : t.autoRestartLast = s.autoRestartLast) (hst : t.state = s.state) : Counted t := by
  refine h.step hlog hcfg hrestarts (hrec ▸ h.recoveries) fun hc => ?_
  rw [hrec, hrestarts, hlast]
  exact h.connected (hst ▸ hc)

theorem of_core (h : Counted s) (hlog : Logs (·.isUncounted = true) s t) (hc : t.core = s.core) :
    Counted t :=
  h.congr hlog (congrArg Core.cfg hc) (congrArg Core.autoRestartAttempts hc)
    (congrArg Core.consentRecoveryAttempts hc) (congrArg Core.autoRestartLast hc)
    (congrArg Core.state hc)

theorem setState (h : Counted s) {st : SessionState} (hst : st ≠ .connected) :
    Counted (s.setState st) :=
  h.leave (.emit _ rfl) rfl rfl h.recoveries hst

theorem fail (h : Counted s) (origin : FailureOrigin) : Counted (s.fail origin) :=
  h.leave ⟨[.onFailed, .setState .failed, s.failure origin], rfl,
    by simp [isUncounted, failure]⟩ rfl rfl h.recoveries SessionState.noConfusion

theorem commitNomination (h : Counted s) (origin : NominationOrigin) (ep : Endpoint) (relay : Bool)
    (cid : Cid) (tx : TransportType) : Counted (s.commitNomination origin ep relay cid tx) where
  connected _ := ⟨rfl, rfl, rfl⟩
  recoveries := Nat.zero_le _
  restarts := rfl
  bounded := bounded_cons (bounded_cons h.bounded (Nat.zero_le _)) (Nat.zero_le _)

theorem reset (env : Env) (hr : restartsSinceNomination s.log = s.autoRestartAttempts)
    (hb : ∀ l, l <:+ s.log → restartsSinceNomination l ≤ s.cfg.autoRestartMaxAttempts) :
    Counted (s.reset env) := by
  obtain ⟨n, -, hc⟩ := reset_core env s
  have hlog : Logs (·.isUncounted = true) s (s.reset env) :=
    reset_logs rfl rfl fun e he => isUncounted_of_routine (Effect.isRoutine_of_quiet he)
  obtain ⟨hcount, hb⟩ := of_uncounted hb hlog
  have hstate : (s.reset env).state = .new := congrArg Core.state hc
  have hrec : (s.reset env).consentRecoveryAttempts = 0 :=
    congrArg Core.consentRecoveryAttempts hc
  have hrestarts : (s.reset env).autoRestartAttempts = s.autoRestartAttempts :=
    congrArg Core.autoRestartAttempts hc
  have hcfg : (s.reset env).cfg = s.cfg := congrArg Core.cfg hc
  refine ⟨fun hconn => ?_, hrec.le.trans (Nat.zero_le _), ?_, hcfg ▸ hb⟩
  · rw [hstate] at hconn
    cases hconn
  · rw [hcount, hrestarts, hr]

theorem autoRestart (h : Counted s) (env : Env) (now : ℕ)
    (ha : s.autoRestartAttempts < s.cfg.autoRestartMaxAttempts) :
    Counted ((s.countAutoRestart now).reset env) := by
  have hcount : restartsSinceNomination (s.countAutoRestart now).log =
      s.autoRestartAttempts + 1 := congrArg (· + 1) h.restarts
  exact reset env hcount (bounded_cons h.bounded (hcount.le.trans ha))

end Counted

theorem act_counted (h : Act env s l t) (hs : Counted s) : Counted t := by
  cases h with
  | quiet h | work h | release h =>
    exact hs.of_core ((Logs.of_quiet h.toKeepsCore).mono fun _ => isUncounted_of_routine) h.core
  | deliver h =>
    exact hs.of_core ((Logs.of_keepsCore h.toKeepsCore).mono fun _ => isUncounted_of_routine) h.core
  | turnInput h =>
    exact hs.of_core ((Logs.of_keepsCore h).mono fun _ => isUncounted_of_routine) h.core
  | gather | waitRemote | startChecking | close => exact hs.setState (by decide)
  | recover h hr =>
    exact hs.leave ⟨[.setState .checking, .consentReset], rfl, by simp [isUncounted]⟩ rfl rfl hr
      SessionState.noConfusion
  | rebuild =>
    have hc := buildCheckList_core env s
    exact hs.congr (.of_log_eq (buildCheckList_log)) (congrArg Core.cfg hc)
      (congrArg Core.autoRestartAttempts hc) (congrArg Core.consentRecoveryAttempts hc)
      (congrArg Core.autoRestartLast hc) (congrArg Core.state hc)
  | check i | liteCheck i =>
    have hc := (sendCheck_scheduled env s i).core
    exact hs.congr ((sendCheck_logs).mono fun _ ⟨_, _, h⟩ => isUncounted_of_sends h)
      (congrArg Core.cfg hc) (congrArg Core.autoRestartAttempts hc)
      (congrArg Core.consentRecoveryAttempts hc) (congrArg Core.autoRestartLast hc)
      (congrArg Core.state hc)
  | pick =>
    have hc := pickNominee_core env s
    exact hs.congr ((pickNominee_logs).mono fun _ ⟨_, _, _, _, h⟩ => isUncounted_of_sends h)
      (congrArg Core.cfg hc) (congrArg Core.autoRestartAttempts hc)
      (congrArg Core.consentRecoveryAttempts hc) (congrArg Core.autoRestartLast hc)
      (congrArg Core.state hc)
  | respond | reject =>
    exact hs.of_core ((reply_logs).mono fun _ => isUncounted_of_sends)
      (reply_core _ _ _ _ s)
  | succeed | received | publish | announce | probe | probing | refresh | keepalive | lapse =>
    exact hs.congr (.emit _ rfl) rfl rfl rfl rfl rfl
  | nominateOwn | nominateNow => exact hs.commitNomination _ _ _ _ _
  | nominateDeferred i p =>
    have hclear : Counted (s.modifyPair i fun p => { p with pendingNomination := false }) :=
      hs.congr (.of_log_eq rfl) rfl rfl rfl rfl rfl
    exact hclear.commitNomination _ _ _ _ _
  | exhaust | expire | loseConsent => exact hs.fail _
  | restart => exact .reset env hs.restarts hs.bounded
  | autoRestart now h hr ha => exact hs.autoRestart env now ha
  | _ => exact hs.congr (.of_log_eq rfl) rfl rfl rfl rfl rfl

theorem step_counted (H : Hmac) (env : Env) (s : Session) (e : Event) (hs : Counted s) :
    Counted (s.step H env e) :=
  (step_steps H env s e).invariant (fun _ hstep hu => act_counted hstep hu) hs

/-! ### No failure with restarts left -/

private theorem honoursPolicy_of_not_failure {cfg : IceConfig} (h : e.isFailure = false) :
    e.honoursPolicy cfg = true := by
  cases e with
  | failedBy => cases h
  | _ => rfl

theorem act_honoursPolicy (h : Act env s l t)
    (hr : s.consentRecoveryAttempts = 0) : Logs (·.honoursPolicy s.cfg = true) s t := by
  refine act_logs_of_failure h (fun _ => honoursPolicy_of_not_failure) fun origin hf => ?_
  cases hf with
  | exhaust hst => simp [failure, honoursPolicy, hr, hst]
  | expire => cases hst : s.state <;> simp [failure, honoursPolicy, hr, hst]
  | loseConsent _ ha =>
    have hleft : s.cfg.restartsLeft s.autoRestartAttempts = false := by
      simpa [IceConfig.restartsLeft] using ha
    simp [failure, honoursPolicy, hleft]

/-! ### The restart -/

/-- From `s` to `t` the session restarted by itself: `on_auto_restart` was called, Gathering
entered again under fresh credentials, and the session is not Failed. -/
structure Restarts (env : Env) (s t : Session) : Prop where
  alive : t.state = .gathering ∨ t.state = .waitingRemote
  fresh : ∃ n, s.draws ≤ n ∧ t.localUfrag = env.ufrag n ∧ t.localPwd = env.pwd n
  logged : ∃ newer new older, s.log <:+ older ∧
    t.log = newer ++ .setState .gathering :: .setState .new :: (new ++ .restarted ::
      .onAutoRestart (s.autoRestartAttempts + 1) s.cfg.autoRestartMaxAttempts :: older)

theorem act_silent_gathering (h : Act env s none t)
    (hs : s.state = .gathering ∨ s.state = .waitingRemote) :
    t.state = .gathering ∨ t.state = .waitingRemote := by
  cases h with
  | quiet h => rwa [h.state]
  | waitRemote => exact .inr rfl
  | check i => rwa [(sendCheck_scheduled env s i).state]
  | succeed i p h => simp [h] at hs
  | _ => exact hs

theorem act_gathers_state {a : Label} (h : Act env s (some a) t) (ha : a ∈ gatherLabels) :
    t.state = s.state := by
  cases a with
  | hosts =>
    cases h
    rfl
  | work =>
    cases h with
    | work h => exact h.state
    | gatherFlags => rfl
  | release =>
    cases h with
    | release h => exact h.state
  | publish =>
    cases h
    rfl
  | _ => exact ha.elim

theorem steps_silent_gathering (h : Steps env gatherLabels s t)
    (hs : s.state = .gathering ∨ s.state = .waitingRemote) :
    (t.state = .gathering ∨ t.state = .waitingRemote) ∧ t.localUfrag = s.localUfrag ∧
      t.localPwd = s.localPwd := by
  refine h.invariant (I := fun u => (u.state = .gathering ∨ u.state = .waitingRemote) ∧
    u.localUfrag = s.localUfrag ∧ u.localPwd = s.localPwd) (fun {u v l} hl hstep hu => ?_)
    ⟨hs, rfl, rfl⟩
  have hnot : l ≠ some .restart := by
    rintro rfl
    exact hl _ rfl
  obtain ⟨hufrag, hpwd⟩ := act_credentials hstep hnot
  refine ⟨?_, hufrag.trans hu.2.1, hpwd.trans hu.2.2⟩
  cases l with
  | none => exact act_silent_gathering hstep hu.1
  | some a =>
    rw [act_gathers_state hstep (hl a rfl)]
    exact hu.1

namespace Restarts

theorem trans (h : Restarts env s t) (hp : Steps env gatherLabels t u) : Restarts env s u := by
  obtain ⟨hst, hu, hpwd⟩ := steps_silent_gathering hp h.alive
  obtain ⟨n, hn, hf⟩ := h.fresh
  obtain ⟨newer, new, older, hs, ht⟩ := h.logged
  obtain ⟨more, hm⟩ := steps_log_suffix hp
  refine ⟨hst, ⟨n, hn, hu.trans hf.1, hpwd.trans hf.2⟩, more ++ newer, new, older, hs, ?_⟩
  rw [← hm, ht, append_assoc]

/-- What happens before leaves the policy and its counter alone. -/
theorem after (h : Restarts env t u) (hc : t.cfg = s.cfg)
    (ha : t.autoRestartAttempts = s.autoRestartAttempts) (hd : s.draws ≤ t.draws)
    (hl : s.log <:+ t.log) : Restarts env s u := by
  obtain ⟨n, hn, hf⟩ := h.fresh
  obtain ⟨newer, new, older, ht, hu⟩ := h.logged
  refine ⟨h.alive, ⟨n, hd.trans hn, hf⟩, newer, new, older, hl.trans ht, ?_⟩
  rw [hu, hc, ha]

end Restarts

theorem reset_gather_restarts {now : ℕ} :
    Restarts env s (((s.countAutoRestart now).reset env).gather env) := by
  obtain ⟨n, hn, hc⟩ := reset_core env (s.countAutoRestart now)
  obtain ⟨new, hlog, -⟩ := reset_log env (s.countAutoRestart now)
  generalize (s.countAutoRestart now).reset env = u at hc hlog ⊢
  have hremote : u.remoteCandidates = [] := congrArg Core.remoteCandidates hc
  refine Restarts.trans (t := u.setState .gathering) ?_
    (gathering_steps (Set.Subset.refl _) fun h => absurd hremote h.2.2)
  refine ⟨.inl rfl, ⟨n, hn, congrArg Core.localUfrag hc, congrArg Core.localPwd hc⟩, [], new, s.log,
    suffix_refl _, ?_⟩
  rw [show (u.setState .gathering).log = .setState .gathering :: u.log from rfl, hlog]
  rfl

/-- Recovery is spent and restarts are left when consent is lost. -/
def losesConsentForGood (s : Session) : Prop :=
  s.losesConsent ∧ s.cfg.consentMaxRecovery ≤ s.consentRecoveryAttempts ∧
    s.cfg.restartsLeft s.autoRestartAttempts = true

instance (s : Session) : Decidable s.losesConsent := inferInstanceAs (Decidable (_ ∧ _ ∧ _))

instance (s : Session) : Decidable s.losesConsentForGood :=
  inferInstanceAs (Decidable (_ ∧ _ ∧ _))

theorem onConsentLost_restarts (hst : s.state = .connected)
    (hrec : s.cfg.consentMaxRecovery ≤ s.consentRecoveryAttempts)
    (hleft : s.cfg.autoRestartOnConsentLoss = true ∧
      s.autoRestartAttempts < s.cfg.autoRestartMaxAttempts) (hlast : s.autoRestartLast = 0) :
    Restarts env s (s.onConsentLost env) := by
  rw [onConsentLost, if_neg (not_lt.mpr hrec), notifyConsentLoss, if_pos hleft,
    if_pos (.inl hlast), restart, if_neg (by simp [countAutoRestart, emit, drawn, hst])]
  obtain ⟨ha, ⟨n, hn, hf⟩, hl⟩ := reset_gather_restarts
  exact ⟨ha, ⟨n, (Nat.le_succ _).trans hn, hf⟩, hl⟩

theorem onKeepalive_restarts (h : s.losesConsentForGood) (hlast : s.autoRestartLast = 0) :
    Restarts env s (s.onKeepalive env) := by
  obtain ⟨hlost, hrec, hleft⟩ := h
  simp only [IceConfig.restartsLeft, Bool.and_eq_true, decide_eq_true_eq] at hleft
  rw [onKeepalive_lost hlost]
  refine Restarts.after (t := s.withoutConsent) ?_ rfl rfl le_rfl (suffix_cons _ _)
  exact onConsentLost_restarts hlost.1 hrec hleft hlast

/-- The first keepalive is sent while the nomination is still being handled. -/
theorem afterNomination_restarts (h : s.losesConsentForGood) (hlast : s.autoRestartLast = 0)
    {ep : Endpoint} {relay : Bool} : Restarts env s (s.afterNomination env ep relay) := by
  obtain ⟨t, hq, he⟩ := afterNomination_eq env s ep relay
  rw [he]
  have hc : (t.emit (.onConnected ep)).core = s.core := hq.core
  obtain ⟨new, hn, -⟩ := hq.log
  have hlog : s.log <:+ (t.emit (.onConnected ep)).log :=
    ⟨.onConnected ep :: new, by rw [emit, hn]; rfl⟩
  refine (Restarts.after ?_ (congrArg Core.cfg hc)
    (congrArg Core.autoRestartAttempts hc) hq.draws hlog).trans beginPathMtu_steps
  refine onKeepalive_restarts ?_ ((congrArg Core.autoRestartLast hc).trans hlast)
  generalize t.emit (.onConnected ep) = v at hc
  unfold losesConsentForGood losesConsent at h ⊢
  rwa [show v.state = s.state from congrArg Core.state hc,
    show v.cfg = s.cfg from congrArg Core.cfg hc,
    show v.consentMissed = s.consentMissed from congrArg Core.consentMissed hc,
    show v.consentRecoveryAttempts = s.consentRecoveryAttempts from
      congrArg Core.consentRecoveryAttempts hc,
    show v.autoRestartAttempts = s.autoRestartAttempts from congrArg Core.autoRestartAttempts hc]

theorem create_counted (env : Env) (cfg : IceConfig) (w : Wiring) (controlling : Bool)
    (tiebreaker : ℕ) : Counted (create env cfg w controlling tiebreaker) := by
  refine ⟨SessionState.noConfusion, Nat.zero_le _, rfl, fun l hl => ?_⟩
  rw [suffix_nil.mp hl]
  exact Nat.zero_le _

theorem step_honoursPolicy {e : Event} (hs : Counted s) (hr : s.cfg.consentMaxRecovery = 0)
    (hlog : ∀ x ∈ s.log, x.honoursPolicy s.cfg = true) :
    ∀ x ∈ (s.step H env e).log, x.honoursPolicy s.cfg = true := by
  refine ((step_steps H env s e).invariant (I := fun u => Counted u ∧ u.cfg = s.cfg ∧
    ∀ x ∈ u.log, x.honoursPolicy s.cfg = true) (fun {u v l} _ hstep hu => ?_) ⟨hs, rfl, hlog⟩).2.2
  obtain ⟨hcount, hcfg, hu⟩ := hu
  refine ⟨act_counted hstep hcount, (act_cfg hstep).1.trans hcfg, fun x hx => ?_⟩
  have hzero : u.consentRecoveryAttempts = 0 := by
    have := hcount.recoveries
    rw [hcfg, hr] at this
    omega
  obtain ⟨new, hn, hp⟩ := act_honoursPolicy hstep hzero
  rw [hn] at hx
  rcases mem_append.mp hx with hx | hx
  · exact hcfg ▸ hp x hx
  · exact hu x hx

/-- The restart policy. Without recovery checks no session that it covers is failed. Whenever
consent is lost with recovery spent and restarts left, at a keepalive or at once after a
nomination, the session restarts. Between two nominations it does so at most
`auto_restart_max_attempts` times. -/
theorem auto_restart_honoured (H : Hmac) (env : Env) (cfg : IceConfig) (w : Wiring)
    (controlling : Bool) (tiebreaker : ℕ) (es : List Event) :
    let s := (create env cfg w controlling tiebreaker).run H env es
    (cfg.consentMaxRecovery = 0 → ∀ x ∈ s.log, x.honoursPolicy cfg = true) ∧
    (∀ gen, .keepalive gen ∈ s.queue → s.keepaliveGen = gen → s.losesConsentForGood →
      Restarts env s (s.step H env (.task (.keepalive gen)))) ∧
    (∀ origin ep relay cid tx, (s.commitNomination origin ep relay cid tx).losesConsentForGood →
      Restarts env (s.commitNomination origin ep relay cid tx)
        (s.onNominated env origin ep relay cid tx)) ∧
    ∀ l, l <:+ s.log → restartsSinceNomination l ≤ cfg.autoRestartMaxAttempts := by
  intro s
  have hcount : Counted s := run_invariant (step_counted H env) (create_counted ..) es
  have hcfg : s.cfg = cfg := run_invariant (I := fun u => u.cfg = cfg)
    (fun u e hu => (step_cfg H env u e).trans hu) rfl es
  refine ⟨fun hr => ?_, fun gen hq hg hl => ?_, fun origin ep relay cid tx hl => ?_, ?_⟩
  · refine (run_invariant (I := fun u => Counted u ∧ u.cfg = cfg ∧
      ∀ x ∈ u.log, x.honoursPolicy cfg = true) (fun u e hu => ?_)
      ⟨create_counted env cfg w controlling tiebreaker, rfl, by simp [create]⟩ es).2.2
    obtain ⟨hu, rfl, hlog⟩ := hu
    exact ⟨step_counted H env u e hu, step_cfg H env u e, step_honoursPolicy hu hr hlog⟩
  · have hlast := (hcount.connected hl.1.1).2.2
    simp only [step, if_pos hq, runTask]
    rw [if_pos (show (s.dequeue _).keepaliveGen = gen from hg)]
    exact Restarts.after (onKeepalive_restarts hl hlast) rfl rfl le_rfl (suffix_refl _)
  · exact afterNomination_restarts hl rfl
  · rw [← hcfg]
    exact hcount.bounded

def missedKeepalive : List Input :=
  [.event .gather, .event (.addRemoteCandidates [1] [2] [peerHost] false),
    .stun 6 (peerResponse [2] (Env.lan.txnId 3)), .stun 6 (peerResponse [2] (Env.lan.txnId 3)),
    .event (.task (.keepalive 1))]

/-- The next keepalive of a session without recovery checks loses consent for good. -/
def beforeConsentLoss : Session :=
  (create .lan { consentMaxRecovery := 0 } {} true 7).run zeroHmac .lan
    (missedKeepalive.map (·.toEvent zeroHmac))

theorem restarts_at_consent_loss :
    beforeConsentLoss.losesConsentForGood ∧
      Restarts .lan beforeConsentLoss
        (beforeConsentLoss.step zeroHmac .lan (.task (.keepalive 2))) ∧
      ∀ x ∈ beforeConsentLoss.log, x.honoursPolicy { consentMaxRecovery := 0 } = true := by
  have hplay : ((create .lan { consentMaxRecovery := 0 } {} true 7).play .lan missedKeepalive).any
      (fun s => decide (.keepalive 2 ∈ s.queue ∧ s.keepaliveGen = 2 ∧ s.losesConsentForGood))
        = true := by decide +kernel
  obtain ⟨hq, hg, hl⟩ := of_decide_eq_true (run_of_play_any hplay zeroHmac)
  have h := auto_restart_honoured zeroHmac .lan { consentMaxRecovery := 0 } {}
    true 7 (missedKeepalive.map (·.toEvent zeroHmac))
  exact ⟨hl, h.2.1 2 hq hg hl, h.1 rfl⟩

/-- With the default configuration consent loss starts recovery checks; none is answered. -/
def failedRecovery : List Input :=
  missedKeepalive ++ .event (.task (.keepalive 2)) ::
    [3, 4, 5, 6, 7, 8].map fun gen => .event (.task (.checkTick gen))

theorem recovery_fails_session :
    ¬ ∃ H : Hmac, ∀ x ∈ ((create .lan {} {} true 7).run H .lan
      (failedRecovery.map (·.toEvent H))).log, x.honoursPolicy {} = true := by
  rintro ⟨H, h⟩
  have hplay : ((create .lan {} {} true 7).play .lan failedRecovery).any
      (fun s => s.log.any fun x => !x.honoursPolicy {}) = true := by decide +kernel
  obtain ⟨x, hx, hn⟩ := any_eq_true.mp (run_of_play_any hplay H)
  rw [h x hx] at hn
  cases hn

end Session

end LinkIce
