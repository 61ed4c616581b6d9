import LinkIce.Session.Scheduler

/-! The log along a path: it only grows, and only a restart starts a new chapter. -/
namespace LinkIce
open Stun List

def Effect.isFailure : Effect → Bool
  | failedBy .. => true
  | _ => false

def Label.fails : Label → Bool
  | exhaust _ | expire _ | loseConsent => true
  | _ => false

def Label.nominates : Label → Bool
  | nominateOwn _ | nominateDeferred _ _ | nominateNow _ _ _ => true
  | _ => false

def Label.delivers : Label → Bool
  | deliver _ _ => true
  | _ => false

theorem Label.eq_deliver {l : Label} (h : l.delivers = true) :
    ∃ strays moves, l = .deliver strays moves := by
  cases l with
  | deliver strays moves => exact ⟨strays, moves, rfl⟩
  | _ => cases h

def Effect.LoggedBy (l : Option Label) : Effect → Prop
  | onData _ => ∃ a ∈ l, a.delivers = true
  | restarted | onAutoRestart _ _ => l = some .restart
  | failedBy .. | onFailed => ∃ a ∈ l, a.fails = true
  | nominated .. => ∃ a ∈ l, a.nominates = true
  | consentReset => l = some .refresh
  | onGathered _ => l = some .publish
  | _ => True

def Effect.isPublication : Effect → Bool
  | onGathered _ => true
  | _ => false

namespace Session

variable {env : Env} {A : Set Label} {s t u : Session} {e : Effect} {l : Option Label} {p : Payload}
  {fromTcp : Bool} {cid : Cid} {ep : Endpoint} {b : StunBuilder} {i : ℕ} {P : Effect → Prop}

theorem emit_core (s : Session) (e : Effect) : (s.emit e).core = s.core := rfl

/-- Effects were added to the log, all of them in `P`. -/
def Logs (P : Effect → Prop) (s t : Session) : Prop := ∃ new, t.log = new ++ s.log ∧ ∀ e ∈ new, P e

namespace Logs

variable {Q : Effect → Prop}

theorem of_log_eq (h : t.log = s.log) : Logs P s t := ⟨[], h, by simp⟩

theorem refl (s : Session) : Logs P s s := of_log_eq rfl

theorem trans (hst : Logs P s t) (htu : Logs P t u) : Logs P s u := by
  obtain ⟨new, hn, hp⟩ := hst
  obtain ⟨more, hm, hq⟩ := htu
  refine ⟨more ++ new, by rw [hm, hn, append_assoc], fun e he => ?_⟩
  rcases mem_append.mp he with h | h
  exacts [hq e h, hp e h]

theorem mono (h : Logs P s t) (hPQ : ∀ e, P e → Q e) : Logs Q s t := by
  obtain ⟨new, hn, hp⟩ := h
  exact ⟨new, hn, fun e he => hPQ e (hp e he)⟩

theorem emit (s : Session) {e : Effect} (he : P e) : Logs P s (s.emit e) :=
  ⟨[e], rfl, by simpa using he⟩

theorem of_keepsCore {P : Effect → Bool} (h : KeepsCore P s t) :
    Logs (fun e => P e = true) s t := h.log

theorem of_quiet (h : KeepsCore Effect.isQuiet s t) : Logs (fun e => e.isRoutine = true) s t :=
  (of_keepsCore h).mono fun _ => Effect.isRoutine_of_quiet

end Logs

abbrev Extends : Session → Session → Prop := Logs (· ≠ .restarted)

theorem Extends.of_delivers (h : Delivers s t) : Extends s t := by
  refine (Logs.of_keepsCore h.toKeepsCore).mono fun e he => ?_
  rintro rfl
  cases he

theorem Extends.of_quiet (h : Quiet s t) : Extends s t := .of_delivers h.delivers

theorem Extends.mem_sinceRestart (h : Extends s t) (he : e ∈ s.sinceRestart) :
    e ∈ t.sinceRestart := by
  obtain ⟨new, hn, hr⟩ := h
  rw [sinceRestart, hn, takeWhile_append_of_pos (by simpa using hr)]
  exact mem_append_right _ he

theorem reply_eq :
    s.reply fromTcp cid ep b = s ∨ ∃ e, e ≠ .restarted ∧ s.reply fromTcp cid ep b = s.emit e := by
  unfold reply carrierSend
  split_ifs
  all_goals first | exact .inl rfl | exact .inr ⟨_, by simp, rfl⟩

theorem reply_keeps : Keeps (fun _ => true) s (s.reply fromTcp cid ep b) := by
  rcases reply_eq with h | ⟨e, -, h⟩
  all_goals rw [h]
  exacts [.refl s, .emit s e rfl]

theorem reply_core (fromTcp : Bool) (cid : Cid) (ep : Endpoint) (b : StunBuilder) (s : Session) :
    (s.reply fromTcp cid ep b).core = s.core := (reply_keeps).core

theorem mem_sinceRestart_self (he : e ≠ .restarted) : e ∈ (s.emit e).sinceRestart := by
  simp [sinceRestart, emit, he]

def sends (p : Payload) : Effect → Prop
  | .udpSend _ q | .tcpSend _ q | .relaySend _ q => q = p
  | _ => False

theorem carrierSend_logs {tcp : Bool} : Logs (sends p) s (s.carrierSend tcp cid p) := by
  unfold carrierSend
  split_ifs
  exacts [.emit s rfl, .refl s, .emit s rfl, .refl s]

theorem reply_logs : Logs (sends (.stun b)) s (s.reply fromTcp cid ep b) := by
  unfold reply
  split_ifs
  exacts [carrierSend_logs, .refl s, .emit s rfl, carrierSend_logs]

theorem ensureRemoteCid_log (env : Env) (ep : Endpoint) (s : Session) :
    (s.ensureRemoteCid env ep).2.log = s.log := by
  unfold ensureRemoteCid
  split_ifs
  · rfl
  · split
    · rfl
    · dsimp only
      split_ifs <;> rfl

theorem ensureRemoteTcpCid_log (env : Env) (ep : Endpoint) (s : Session) :
    (s.ensureRemoteTcpCid env ep).2.log = s.log := by
  unfold ensureRemoteTcpCid
  split_ifs
  · rfl
  · dsimp only
    split_ifs <;> rfl

theorem relayCidForEndpoint_log (ep : Endpoint) (s : Session) :
    (s.relayCidForEndpoint ep).2.log = s.log := by
  unfold relayCidForEndpoint
  split <;> rfl

theorem transmit_logs {p : CheckPair} : Logs (sends (.stun b)) s (s.transmit env p b) := by
  have hcid := ensureRemoteCid_log env (p.endpoint env.net) s
  have htcp := ensureRemoteTcpCid_log env (p.endpoint env.net) s
  have hrelay := relayCidForEndpoint_log (p.endpoint env.net) s
  unfold transmit
  dsimp only
  split_ifs
  · exact .refl s
  · exact .of_log_eq htcp
  · exact (Logs.of_log_eq htcp).trans (carrierSend_logs)
  · exact (Logs.of_log_eq hrelay).trans (.emit _ rfl)
  · exact .of_log_eq hcid
  · exact (Logs.of_log_eq hcid).trans (carrierSend_logs)

/-- Nothing is sent but the check of pair `i`. -/
theorem sendCheck_logs :
    Logs (fun e => ∃ p, s.checkList[i]? = some p ∧ sends (.stun (s.checkMessage p)) e) s
      (s.sendCheck env i) := by
  unfold sendCheck
  split
  · exact .refl s
  · rename_i p hp
    split_ifs
    · obtain ⟨ps, hs, -⟩ := failPair_repaints s i
      exact .of_log_eq (by rw [hs])
    · refine Logs.mono (Logs.trans (Logs.of_log_eq rfl) transmit_logs) fun e he => ?_
      exact ⟨p, hp, he⟩

/-- Nothing is sent but the follow-up check of the best valid pair. -/
theorem pickNominee_logs :
    Logs (fun e => ∃ i p, CheckPair.bestValid s.checkList = some i ∧ s.checkList[i]? = some p ∧
      sends (.stun (s.checkMessage { p with nomineeCheckSent := true })) e) s
      (s.pickNominee env) := by
  unfold pickNominee
  split
  · exact .refl s
  · rename_i i hi
    refine Logs.mono (Logs.trans (Logs.of_log_eq rfl) (sendCheck_logs)) ?_
    rintro e ⟨q, hq, he⟩
    rw [modifyPair, List.getElem?_modify] at hq
    obtain ⟨p, hp, rfl⟩ := Option.map_eq_some_iff.mp hq
    rw [if_pos rfl] at he
    exact ⟨i, p, hi, hp, he⟩

theorem sends_ne_restarted (h : sends p e) : e ≠ .restarted := by
  rintro rfl
  exact h

theorem pickNominee_core (env : Env) (s : Session) :
    (s.pickNominee env).core = { s.core with
      nomineeSelected := (s.pickNominee env).nomineeSelected
      checkList := (s.pickNominee env).checkList } := by
  obtain ⟨sel, ps, rs, h⟩ := pickNominee_keeps env s
  have hsel : (s.pickNominee env).nomineeSelected = sel := congrArg Core.nomineeSelected h.core
  rw [hsel, h.checkList, h.core]
  rfl

theorem reply_extends : Extends s (s.reply fromTcp cid ep b) :=
  (reply_logs).mono fun _ => sends_ne_restarted

theorem buildCheckList_log : (s.buildCheckList env).log = s.log := by
  obtain ⟨_, _, _, h⟩ := buildCheckList_eq
  rw [h]

theorem buildCheckList_core (env : Env) (s : Session) :
    (s.buildCheckList env).core = { s.core with
      localCandidates := (s.buildCheckList env).localCandidates
      remoteCandidates := (s.buildCheckList env).remoteCandidates
      checkList := (s.buildCheckList env).checkList } := by
  obtain ⟨_, _, _, h⟩ := buildCheckList_eq
  rw [h]
  rfl

def failure (origin : FailureOrigin) (s : Session) : Effect :=
  .failedBy origin s.state s.controlling s.checkList s.consentRecoveryAttempts
    s.autoRestartAttempts

theorem restartTimers_logs : Logs (fun e => e.isQuiet = true) s (s.restartTimers env) := by
  have hq := (dropTurn_works env s.cancelTimers).trans (dropTurnBackupProbe_quiet env _).toWorks
  obtain ⟨new, hn, hp⟩ := hq.log
  exact ⟨new, hn, hp⟩

theorem wipeForRestart_log : s.wipeForRestart.log = s.log := by
  unfold wipeForRestart unregisterMdns
  dsimp only [tearDownCids]
  split_ifs <;> rfl

theorem freshCredentials_log : (s.freshCredentials env).log = s.log := rfl

/-- A restart is logged first; then the TURN clients say goodbye. -/
theorem reset_log (env : Env) (s : Session) :
    ∃ new, (s.reset env).log = .setState .new :: (new ++ .restarted :: s.log) ∧
      ∀ e ∈ new, e.isQuiet = true := by
  obtain ⟨new, hn, hp⟩ := restartTimers_logs
  refine ⟨new, ?_, hp⟩
  change .setState .new ::
    (((s.emit .restarted).restartTimers env).freshCredentials env).wipeForRestart.log = _
  rw [wipeForRestart_log, freshCredentials_log, hn]
  rfl

theorem loggedBy_of_quiet (h : e.isQuiet = true) : e.LoggedBy l := by
  cases e with
  | onGathered => cases h
  | _ => trivial

theorem loggedBy_of_routine {strays moves : Bool} (h : e.isRoutine = true) :
    e.LoggedBy (some (.deliver strays moves)) := by
  cases e with
  | onData => exact ⟨_, rfl, rfl⟩
  | onGathered => cases h
  | _ => trivial

theorem loggedBy_of_sends (h : sends p e) : e.LoggedBy l := by
  cases e with
  | onGathered => exact h.elim
  | _ => trivial

theorem commitNomination_logs {origin : NominationOrigin} {relay : Bool}
    {tx : TransportType} (hl : ∃ a ∈ l, a.nominates = true) :
    Logs (·.LoggedBy l) s (s.commitNomination origin ep relay cid tx) := by
  refine ⟨[.setState .connected, .nominated origin s.controlling ep relay cid tx], rfl, ?_⟩
  simpa [Effect.LoggedBy] using hl

theorem fail_logs {origin : FailureOrigin} (hl : ∃ a ∈ l, a.fails = true) :
    Logs (·.LoggedBy l) s (s.fail origin) := by
  refine ⟨[.onFailed, .setState .failed, s.failure origin], rfl, ?_⟩
  simpa [Effect.LoggedBy, failure] using hl

theorem reset_logs (hnew : P (.setState .new)) (hres : P .restarted)
    (hquiet : ∀ e : Effect, e.isQuiet = true → P e) : Logs P s (s.reset env) := by
  obtain ⟨new, hn, hq⟩ := reset_log env s
  refine ⟨.setState .new :: (new ++ [.restarted]), by simp [hn], fun e he => ?_⟩
  simp only [mem_cons, mem_append, not_mem_nil, or_false] at he
  rcases he with rfl | he | rfl
  exacts [hnew, hquiet e (hq e he), hres]

/-- The label of an action bounds what it logs. -/
theorem act_logs (h : Act env s l t) : Logs (·.LoggedBy l) s t := by
  cases h with
  | quiet h | work h | release h =>
    exact (Logs.of_keepsCore h.toKeepsCore).mono fun _ => loggedBy_of_quiet
  | deliver h => exact (Logs.of_keepsCore h.toKeepsCore).mono fun _ => loggedBy_of_routine
  | turnInput h => exact (Logs.of_keepsCore h).mono fun _ => loggedBy_of_routine
  | gather | waitRemote | startChecking | close => exact .emit _ trivial
  | succeed | received | announce | probe | probing | keepalive | lapse => exact .emit _ trivial
  | publish => exact .emit _ rfl
  | refresh => exact .emit _ rfl
  | recover => exact ⟨[.setState .checking, .consentReset], rfl, by simp [Effect.LoggedBy]⟩
  | check i | liteCheck i => exact (sendCheck_logs).mono fun _ ⟨_, _, h⟩ => loggedBy_of_sends h
  | pick => exact (pickNominee_logs).mono fun _ ⟨_, _, _, _, h⟩ => loggedBy_of_sends h
  | respond | reject => exact (reply_logs).mono fun _ => loggedBy_of_sends
  | nominateOwn | nominateNow => exact commitNomination_logs ⟨_, rfl, rfl⟩
  | nominateDeferred i p =>
    exact (Logs.of_log_eq (t := s.modifyPair i fun p => { p with pendingNomination := false })
      rfl).trans (commitNomination_logs ⟨_, rfl, rfl⟩)
  | rebuild => exact .of_log_eq (buildCheckList_log)
  | exhaust | expire | loseConsent => exact fail_logs ⟨_, rfl, rfl⟩
  | restart => exact reset_logs trivial rfl fun _ => loggedBy_of_quiet
  | autoRestart now =>
    have hcount : Logs (·.LoggedBy (some .restart)) s (s.countAutoRestart now) := .emit _ rfl
    exact hcount.trans (reset_logs trivial rfl fun _ => loggedBy_of_quiet)
  | _ => exact .of_log_eq rfl

theorem steps_logs (h : Steps env A s t) :
    Logs (fun e => ∃ l : Option Label, (∀ a ∈ l, a ∈ A) ∧ e.LoggedBy l) s t := by
  refine h.invariant (I := Logs _ s) (fun {u v l} ha hact hu => hu.trans ?_) (.refl s)
  exact (act_logs hact).mono fun e he => ⟨l, ha, he⟩

theorem act_extends (h : Act env s l t) (hl : l ≠ some .restart) : Extends s t := by
  refine (act_logs h).mono fun e he => ?_
  rintro rfl
  exact hl he

/-- The log is never cut. -/
theorem act_log_suffix (h : Act env s l t) : s.log <:+ t.log := by
  obtain ⟨new, hn, -⟩ := act_logs h
  exact ⟨new, hn.symm⟩

theorem steps_log_suffix (h : Steps env A s t) : s.log <:+ t.log :=
  h.invariant (I := fun u => s.log <:+ u.log) (fun _ hstep hu => hu.trans (act_log_suffix hstep))
    (suffix_refl _)

theorem restartTimers_core (env : Env) (s : Session) :
    (s.restartTimers env).core =
      { s.core with nominationWaitArmed := false, turnAttemptIdx := 0 } := by
  have hq := (dropTurn_works env s.cancelTimers).trans (dropTurnBackupProbe_quiet env _).toWorks
  unfold restartTimers
  generalize (s.cancelTimers.dropTurn env).dropTurnBackupProbe env = t at hq ⊢
  have ht : ({ t with turnBackups := [], turnAttemptIdx := 0, turnBackupProbeIdx := 0
                      turnLastFailover := 0 } : Session).core =
      { t.core with turnAttemptIdx := 0 } := rfl
  rw [ht, hq.core]
  rfl

theorem wipeForRestart_core (s : Session) :
    s.wipeForRestart.core = { s.core with
      remoteCandidates := []
      remoteUfrag := []
      remotePwd := []
      checkList := []
      consentMissed := 0
      consentRecoveryAttempts := 0
      nomineeSelected := false
      remoteEndOfCandidates := false
      stunGathered := false
      turnGathering := false
      nominatedEp := ⟨[], 0⟩
      usesRelay := false } := by
  unfold wipeForRestart unregisterMdns
  split_ifs <;> rfl

theorem freshCredentials_core (env : Env) (s : Session) :
    (s.freshCredentials env).core = { s.core with
      localUfrag := env.ufrag s.draws
      localPwd := env.pwd s.draws
      localCandidates := [] } := rfl

/-- What a restart leaves of the core. -/
theorem reset_core (env : Env) (s : Session) :
    ∃ n, s.draws ≤ n ∧ (s.reset env).core = { s.core with
      state := .new
      localUfrag := env.ufrag n
      localPwd := env.pwd n
      localCandidates := []
      remoteUfrag := []
      remotePwd := []
      remoteCandidates := []
      checkList := []
      nomineeSelected := false
      nominationWaitArmed := false
      consentMissed := 0
      consentRecoveryAttempts := 0
      remoteEndOfCandidates := false
      stunGathered := false
      turnGathering := false
      turnAttemptIdx := 0
      nominatedEp := ⟨[], 0⟩
      usesRelay := false } := by
  have hdraws : s.draws ≤ ((s.emit .restarted).restartTimers env).draws :=
    ((dropTurn_works env (s.emit .restarted).cancelTimers).trans
      (dropTurnBackupProbe_quiet env _).toWorks).draws
  have hc := restartTimers_core env (s.emit .restarted)
  unfold reset
  generalize (s.emit .restarted).restartTimers env = t at hdraws hc ⊢
  refine ⟨t.draws, hdraws, ?_⟩
  have hset (u : Session) : (u.setState .new).core = { u.core with state := .new } := rfl
  rw [hset, wipeForRestart_core, freshCredentials_core, hc]
  rfl

theorem act_wiring (h : Act env s l t) : t.core.wiring = s.core.wiring := by
  have hreset (u : Session) : (u.reset env).core.wiring = u.core.wiring := by
    obtain ⟨n, -, hr⟩ := reset_core env u
    rw [hr]
    rfl
  cases h with
  | quiet h | work h | release h | deliver h | turnInput h => exact congrArg Core.wiring h.core
  | rebuild =>
    rw [buildCheckList_core]
    rfl
  | check i | liteCheck i =>
    rw [(sendCheck_scheduled env s i).core]
    rfl
  | pick =>
    rw [pickNominee_core]
    rfl
  | respond | reject => exact congrArg Core.wiring (reply_core _ _ _ _ s)
  | restart => exact hreset s
  | autoRestart now => exact hreset (s.countAutoRestart now)
  | _ => rfl

theorem act_cfg (h : Act env s l t) : t.cfg = s.cfg ∧ t.tiebreaker = s.tiebreaker := by
  have hw := act_wiring h
  exact ⟨congrArg (·.1) hw, congrArg (·.2.1) hw⟩

/-- Nor does it during a path. -/
theorem steps_wiring (h : Steps env A s t) : t.core.wiring = s.core.wiring :=
  h.invariant (I := fun u => u.core.wiring = s.core.wiring)
    (fun _ hact hu => (act_wiring hact).trans hu) rfl

theorem steps_hasMdns (h : Steps env A s t) : t.hasMdns = s.hasMdns :=
  congrArg (·.2.2.2.2.2) (steps_wiring h)

/-- Only a restart changes the local credentials. -/
theorem act_credentials (h : Act env s l t) (hl : l ≠ some .restart) :
    t.localUfrag = s.localUfrag ∧ t.localPwd = s.localPwd := by
  cases h with
  | quiet h | work h | release h | deliver h | turnInput h =>
    exact ⟨congrArg Core.localUfrag h.core, congrArg Core.localPwd h.core⟩
  | rebuild =>
    have hc := buildCheckList_core env s
    exact ⟨congrArg Core.localUfrag hc, congrArg Core.localPwd hc⟩
  | check i | liteCheck i =>
    have hc := (sendCheck_scheduled env s i).core
    exact ⟨congrArg Core.localUfrag hc, congrArg Core.localPwd hc⟩
  | pick =>
    have hc := pickNominee_core env s
    exact ⟨congrArg Core.localUfrag hc, congrArg Core.localPwd hc⟩
  | respond | reject =>
    exact ⟨congrArg Core.localUfrag (reply_core _ _ _ _ s),
      congrArg Core.localPwd (reply_core _ _ _ _ s)⟩
  | restart | autoRestart => exact absurd rfl hl
  | _ => exact ⟨rfl, rfl⟩

/-- Only a flip changes the role. -/
theorem act_controlling (h : Act env s l t) (hl : l ≠ some .flip) :
    t.controlling = s.controlling := by
  cases h with
  | quiet h | work h | release h | deliver h | turnInput h =>
    exact congrArg Core.controlling h.core
  | rebuild => exact congrArg Core.controlling (buildCheckList_core env s)
  | check i | liteCheck i => exact congrArg Core.controlling (sendCheck_scheduled env s i).core
  | pick => exact congrArg Core.controlling (pickNominee_core env s)
  | respond | reject => exact congrArg Core.controlling (reply_core _ _ _ _ s)
  | restart =>
    obtain ⟨n, -, hcore⟩ := reset_core env s
    exact congrArg Core.controlling hcore
  | autoRestart now =>
    obtain ⟨n, -, hcore⟩ := reset_core env (s.countAutoRestart now)
    exact congrArg Core.controlling hcore
  | flip => exact absurd rfl hl
  | _ => rfl

theorem steps_controlling (h : Steps env A s t) (hA : .flip ∉ A) : t.controlling = s.controlling :=
  h.invariant (I := fun u => u.controlling = s.controlling)
    (fun hl hact hu => (act_controlling hact fun hf => hA (hl _ hf)).trans hu) rfl

/-! ### Publications -/

/-- Other actions publish nothing. -/
theorem act_unpublished (h : Act env s l t) (hl : l ≠ some .publish) :
    Logs (·.isPublication = false) s t := by
  refine (act_logs h).mono fun e he => ?_
  cases e with
  | onGathered => exact absurd he hl
  | _ => rfl

theorem steps_unpublished (h : Steps env A s t) (hA : .publish ∉ A) :
    Logs (·.isPublication = false) s t :=
  h.invariant (I := Logs (·.isPublication = false) s)
    (fun hl hact hu => hu.trans (act_unpublished hact fun hp => hA (hl _ hp))) (.refl s)

/-! ### Failures -/

/-- What the code has checked when it declares the session failed. -/
inductive Fails (s : Session) : Option Label → FailureOrigin → Prop
  | exhaust (h : s.state = .checking) (hp : ∀ p ∈ s.checkList, p.isPending = false) :
      Fails s (some (.exhaust s)) .checksExhausted
  | expire : Fails s (some (.expire s.checksUnfinished)) .nominationWait
  | loseConsent (h : s.state = .connected) (ha : ¬ (s.cfg.autoRestartOnConsentLoss = true ∧
      s.autoRestartAttempts < s.cfg.autoRestartMaxAttempts)) :
      Fails s (some .loseConsent) .consentLoss

theorem act_failure (h : Act env s l t) :
    Logs (·.isFailure = false) s t ∨ ∃ origin, Fails s l origin ∧ t = s.fail origin := by
  have hlog := act_logs h
  have hquiet (hl : ∀ a ∈ l, a.fails = false) : Logs (·.isFailure = false) s t := by
    refine hlog.mono fun e he => ?_
    cases e with
    | failedBy =>
      obtain ⟨a, ha, hf⟩ := he
      exact absurd hf (by simp [hl a ha])
    | _ => rfl
  cases h with
  | exhaust h hp => exact .inr ⟨_, .exhaust h hp, rfl⟩
  | expire => exact .inr ⟨_, .expire, rfl⟩
  | loseConsent h hr ha => exact .inr ⟨_, .loseConsent h ha, rfl⟩
  | _ => exact .inl (hquiet (by simp [Label.fails]))

/-- Every failure of a path is in `P` if every failing action of it is. -/
theorem act_logs_of_failure (h : Act env s l t) (hP : ∀ e : Effect, e.isFailure = false → P e)
    (hf : ∀ origin, Fails s l origin → P (s.failure origin)) : Logs P s t := by
  rcases act_failure h with hl | ⟨origin, hfail, rfl⟩
  · exact hl.mono hP
  · refine ⟨[.onFailed, .setState .failed, s.failure origin], rfl, fun e he => ?_⟩
    simp only [mem_cons, not_mem_nil, or_false] at he
    rcases he with rfl | rfl | rfl
    exacts [hP _ rfl, hP _ rfl, hf origin hfail]

/-! ### The nomination slot -/

structure SameSlot (s t : Session) : Prop where
  ep : t.pendingNomEp = s.pendingNomEp
  relay : t.pendingNomRelay = s.pendingNomRelay
  cid : t.pendingNomCid = s.pendingNomCid
  tx : t.pendingNomTx = s.pendingNomTx

theorem SameSlot.of_core (h : t.core = s.core) : SameSlot s t :=
  ⟨congrArg Core.pendingNomEp h, congrArg Core.pendingNomRelay h, congrArg Core.pendingNomCid h,
    congrArg Core.pendingNomTx h⟩

theorem slotFresh_iff : s.slotFresh = true ↔ ∃ txn, .requestReceived txn true s.pendingNomEp
    s.pendingNomCid s.pendingNomTx s.pendingNomRelay ∈ s.sinceRestart := by
  unfold slotFresh
  rw [any_eq_true]
  constructor
  · rintro ⟨e, he, hm⟩
    cases e with
    | requestReceived txn uc ep cid tx relay =>
      simp only [Bool.and_eq_true, decide_eq_true_eq] at hm
      obtain ⟨rfl, rfl, rfl, rfl, rfl⟩ := hm
      exact ⟨txn, he⟩
    | _ => simp at hm
  · rintro ⟨txn, h⟩
    exact ⟨_, h, by simp⟩

theorem slotFresh_of_extends (h : Extends s t) (hc : SameSlot s t) (hs : s.slotFresh = true) :
    t.slotFresh = true := by
  obtain ⟨txn, hr⟩ := slotFresh_iff.mp hs
  refine slotFresh_iff.mpr ⟨txn, ?_⟩
  rw [hc.ep, hc.relay, hc.cid, hc.tx]
  exact h.mem_sinceRestart hr

theorem sendCheck_sameSlot : SameSlot s (s.sendCheck env i) := by
  have h := (sendCheck_scheduled env s i).core
  exact ⟨congrArg Core.pendingNomEp h, congrArg Core.pendingNomRelay h,
    congrArg Core.pendingNomCid h, congrArg Core.pendingNomTx h⟩

theorem pickNominee_sameSlot : SameSlot s (s.pickNominee env) := by
  have h := pickNominee_core env s
  exact ⟨congrArg Core.pendingNomEp h, congrArg Core.pendingNomRelay h,
    congrArg Core.pendingNomCid h, congrArg Core.pendingNomTx h⟩

private theorem buildCheckList_sameSlot : SameSlot s (s.buildCheckList env) := by
  have h := buildCheckList_core env s
  exact ⟨congrArg Core.pendingNomEp h, congrArg Core.pendingNomRelay h,
    congrArg Core.pendingNomCid h, congrArg Core.pendingNomTx h⟩

theorem act_slotFresh (h : Act env s l t) (hl : l ≠ some .restart)
    (hs : s.slotFresh = true) : t.slotFresh = true := by
  have he := act_extends h hl
  cases h with
  | quiet h | work h | release h | deliver h | turnInput h =>
    exact slotFresh_of_extends he (.of_core h.core) hs
  | check i | liteCheck i => exact slotFresh_of_extends he sendCheck_sameSlot hs
  | pick => exact slotFresh_of_extends he pickNominee_sameSlot hs
  | rebuild => exact slotFresh_of_extends he buildCheckList_sameSlot hs
  | respond | reject => exact slotFresh_of_extends he (.of_core (reply_core _ _ _ _ s)) hs
  | stash ep relay cid tx hr => exact slotFresh_iff.mpr hr
  | defer i ep relay cid tx hr => exact slotFresh_iff.mpr hr
  | restart | autoRestart => exact absurd rfl hl
  | _ => exact slotFresh_of_extends he ⟨rfl, rfl, rfl, rfl⟩ hs

theorem steps_slotFresh (h : Steps env A s t) (hA : .restart ∉ A) (hs : s.slotFresh = true) :
    t.slotFresh = true := by
  refine h.invariant (I := fun u => u.slotFresh = true) (fun {u v l} ha hstep hu => ?_) hs
  refine act_slotFresh hstep ?_ hu
  rintro rfl
  exact hA (ha _ rfl)

theorem act_notConnected (h : Act env s l t)
    (hl : ∀ a ∈ l, a.nominates = false) (hs : s.state ≠ .connected) : t.state ≠ .connected := by
  have hreset (u : Session) : (u.reset env).state ≠ .connected := by
    obtain ⟨n, -, hc⟩ := reset_core env u
    rw [show (u.reset env).state = .new from congrArg Core.state hc]
    decide
  cases h with
  | quiet h | work h | release h | deliver h | turnInput h => rwa [h.state]
  | gather | waitRemote | startChecking | recover | close => exact SessionState.noConfusion
  | exhaust | expire | loseConsent => exact SessionState.noConfusion
  | rebuild =>
    have hc : (s.buildCheckList env).state = s.state :=
      congrArg Core.state (buildCheckList_core env s)
    rwa [hc]
  | check i | liteCheck i => rwa [(sendCheck_scheduled env s i).state]
  | pick =>
    have hc : (s.pickNominee env).state = s.state := congrArg Core.state (pickNominee_core env s)
    rwa [hc]
  | respond fromTcp cid ep txn | reject fromTcp cid ep txn =>
    have hc (b : StunBuilder) : (s.reply fromTcp cid ep b).state = s.state :=
      congrArg Core.state (reply_core fromTcp cid ep b s)
    rwa [hc]
  | nominateOwn | nominateDeferred | nominateNow => cases hl _ rfl
  | restart => exact hreset s
  | autoRestart now => exact hreset _
  | _ => exact hs

theorem steps_notConnected (h : Steps env { l | l.nominates = false } s t)
    (hs : s.state ≠ .connected) : t.state ≠ .connected :=
  h.invariant (I := fun u => u.state ≠ .connected)
    (fun hl hact hu => act_notConnected hact (fun a ha => hl a ha) hu) hs

end Session

end LinkIce
