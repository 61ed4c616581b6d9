import LinkIce.Session.AutoRestart
import LinkIce.Session.LinkPaths

/-! Consent freshness: how many keepalives a session has sent when it gives consent up, and
what makes it count from zero again. -/
namespace LinkIce

open List Option

open Stun

variable {log new : List Effect} {n : ℕ}

namespace Effect

variable {e : Effect}

def resetsConsent : Effect → Bool
  | consentReset | restarted | nominated .. | onAutoRestart .. => true
  | _ => false

def isKeepalive : Effect → Bool
  | keepaliveSent _ => true
  | _ => false

def probeTxn : Effect → Option TransactionId
  | keepaliveSent txn | mtuProbeSent txn => some txn
  | _ => none

def concernsConsent (e : Effect) : Bool :=
  e.resetsConsent || e.isKeepalive || decide (e = .consentLost)

theorem concernsConsent_of_routine (h : e.isRoutine = true) : e.concernsConsent = false := by
  cases e <;> first | rfl | cases h

theorem concernsConsent_of_sends {p : Payload} (h : Session.sends p e) :
    e.concernsConsent = false := by
  cases e <;> first | rfl | exact h.elim

end Effect

/-- The effects since `consent_missed_` was last stored 0. -/
def sinceReset (log : List Effect) : List Effect := log.takeWhile fun e => !e.resetsConsent

def keepalivesSince (log : List Effect) : ℕ := (sinceReset log).countP Effect.isKeepalive

theorem keepalivesSince_reset (h : e.resetsConsent = true) : keepalivesSince (e :: log) = 0 := by
  simp [keepalivesSince, sinceReset, h]

theorem keepalivesSince_cons (h : e.resetsConsent = false) :
    keepalivesSince (e :: log) = keepalivesSince log + if e.isKeepalive then 1 else 0 := by
  simp [keepalivesSince, sinceReset, h, countP_cons]

theorem keepalivesSince_append (h : ∀ e ∈ new, e.concernsConsent = false)
    (log : List Effect) : keepalivesSince (new ++ log) = keepalivesSince log := by
  induction new with
  | nil => rfl
  | cons e new ih =>
    have he := h e mem_cons_self
    simp only [Effect.concernsConsent, Bool.or_eq_false_iff] at he
    rw [cons_append, keepalivesSince_cons he.1.1, ih fun x hx => h x (by simp [hx]), he.1.2]
    rfl

def LossesEarly (n : ℕ) (log : List Effect) : Prop :=
  ∀ before, .consentLost :: before <:+ log → keepalivesSince before < n

theorem LossesEarly.cons (h : LossesEarly n log)
    (he : e = .consentLost → keepalivesSince log < n) : LossesEarly n (e :: log) := by
  intro before hb
  rcases suffix_cons_iff.mp hb with heq | hb
  · obtain ⟨rfl, rfl⟩ := List.cons.inj heq
    exact he rfl
  · exact h before hb

theorem LossesEarly.append (h : LossesEarly n log)
    (hnew : ∀ e ∈ new, e.concernsConsent = false) : LossesEarly n (new ++ log) := by
  induction new with
  | nil => exact h
  | cons e new ih =>
    refine (ih fun x hx => hnew x (by simp [hx])).cons fun he => ?_
    have hn := hnew e mem_cons_self
    rw [he] at hn
    cases hn

namespace Session

variable {H : Hmac} {env : Env} {A : Set Label} {s t : Session} {b : StunBuilder} {cid : Cid}
  {e : Event} {m : StunMessage} {fromTcp : Bool}

/-! ### Counting keepalives -/

/-- The counter runs ahead of the keepalives: it is raised before one is sent, and the one
that reaches the limit is never sent. -/
structure ConsentCounted (s : Session) : Prop where
  counted : keepalivesSince s.log ≤ s.consentMissed
  below : keepalivesSince s.log < s.cfg.consentMaxFailures
  early : LossesEarly s.cfg.consentMaxFailures s.log

namespace ConsentCounted

theorem same (h : ConsentCounted s) (hlog : Logs (·.concernsConsent = false) s t)
    (hm : t.consentMissed = s.consentMissed) (hcfg : t.cfg = s.cfg) : ConsentCounted t := by
  obtain ⟨new, hn, hnew⟩ := hlog
  have hk := keepalivesSince_append hnew s.log
  refine ⟨?_, ?_, ?_⟩
  · rw [hn, hk, hm]
    exact h.counted
  · rw [hn, hk, hcfg]
    exact h.below
  · rw [hn, hcfg]
    exact h.early.append hnew

theorem of_core (h : ConsentCounted s) (hlog : Logs (·.concernsConsent = false) s t)
    (hc : t.core = s.core) : ConsentCounted t :=
  h.same hlog (congrArg Core.consentMissed hc) (congrArg Core.cfg hc)

/-- The count starts again from zero. -/
theorem renew (h : ConsentCounted s) {e : Effect} (new : List Effect)
    (hlog : t.log = new ++ e :: s.log) (hnew : ∀ x ∈ new, x.concernsConsent = false)
    (he : e.resetsConsent = true) (hcfg : t.cfg = s.cfg) : ConsentCounted t := by
  have hzero : keepalivesSince t.log = 0 := by
    rw [hlog, keepalivesSince_append hnew, keepalivesSince_reset he]
  have hpos : 0 < t.cfg.consentMaxFailures := by
    rw [hcfg]
    exact Nat.zero_lt_of_lt h.below
  refine ⟨?_, ?_, ?_⟩
  · rw [hzero]
    exact Nat.zero_le _
  · rw [hzero]
    exact hpos
  · rw [hlog, hcfg]
    refine (h.early.cons fun hlost => ?_).append hnew
    rw [hlost] at he
    cases he

theorem keepalive (h : ConsentCounted s) (txn : TransactionId)
    (hm : s.consentMissed + 1 < s.cfg.consentMaxFailures) :
    ConsentCounted (({ s with consentMissed := s.consentMissed + 1 } : Session).emit
      (.keepaliveSent txn)) := by
  have hk : keepalivesSince (.keepaliveSent txn :: s.log) = keepalivesSince s.log + 1 :=
    keepalivesSince_cons rfl
  have hc := h.counted
  refine ⟨?_, ?_, h.early.cons nofun⟩
  · exact hk.trans_le (Nat.succ_le_succ hc)
  · exact hk.trans_lt (lt_of_le_of_lt (Nat.succ_le_succ hc) hm)

theorem lapse (h : ConsentCounted s) :
    ConsentCounted (({ s with consentMissed := s.consentMissed + 1 } : Session).emit
      .consentLost) := by
  have hk : keepalivesSince (.consentLost :: s.log) = keepalivesSince s.log :=
    keepalivesSince_cons rfl
  refine ⟨?_, ?_, h.early.cons fun _ => h.below⟩
  · exact hk.trans_le (h.counted.trans (Nat.le_succ _))
  · exact hk.trans_lt h.below

theorem reset (h : ConsentCounted s) (env : Env) : ConsentCounted (s.reset env) := by
  obtain ⟨new, hn, hq⟩ := reset_log env s
  obtain ⟨n, -, hc⟩ := reset_core env s
  refine h.renew (.setState .new :: new) hn (fun x hx => ?_) rfl (congrArg Core.cfg hc)
  rcases mem_cons.mp hx with rfl | hx
  · rfl
  · exact Effect.concernsConsent_of_routine (Effect.isRoutine_of_quiet (hq x hx))

theorem commitNomination (h : ConsentCounted s) (origin : NominationOrigin) (ep : Endpoint)
    (relay : Bool) (cid : Cid) (tx : TransportType) :
    ConsentCounted (s.commitNomination origin ep relay cid tx) :=
  h.renew [.setState .connected] rfl (by simp [Effect.concernsConsent,
    Effect.resetsConsent, Effect.isKeepalive]) rfl rfl

end ConsentCounted

theorem act_consentCounted {l : Option Label} (h : Act env s l t) (hs : ConsentCounted s) :
    ConsentCounted t := by
  cases h with
  | quiet h | work h | release h =>
    exact hs.of_core ((Logs.of_quiet h.toKeepsCore).mono fun _ =>
      Effect.concernsConsent_of_routine) h.core
  | deliver h =>
    exact hs.of_core ((Logs.of_keepsCore h.toKeepsCore).mono fun _ =>
      Effect.concernsConsent_of_routine) h.core
  | turnInput h =>
    exact hs.of_core ((Logs.of_keepsCore h).mono fun _ => Effect.concernsConsent_of_routine) h.core
  | gather | waitRemote | startChecking | close => exact hs.same (.emit _ rfl) rfl rfl
  | succeed | received | publish | announce | probe | probing => exact hs.same (.emit _ rfl) rfl rfl
  | refresh => exact hs.renew [] rfl (by simp) rfl rfl
  | recover =>
    exact hs.renew [.setState .checking] rfl (by simp [Effect.concernsConsent,
      Effect.resetsConsent, Effect.isKeepalive]) rfl rfl
  | unsent => exact ⟨hs.counted.trans (Nat.le_succ _), hs.below, hs.early⟩
  | keepalive txn _ hm => exact hs.keepalive txn hm
  | lapse => exact hs.lapse
  | rebuild =>
    have hc := buildCheckList_core env s
    exact hs.same (.of_log_eq (buildCheckList_log)) (congrArg Core.consentMissed hc)
      (congrArg Core.cfg hc)
  | check i | liteCheck i =>
    have hc := (sendCheck_scheduled env s i).core
    exact hs.same ((sendCheck_logs).mono
      fun _ ⟨_, _, h⟩ => Effect.concernsConsent_of_sends h)
      (congrArg Core.consentMissed hc) (congrArg Core.cfg hc)
  | pick =>
    have hc := pickNominee_core env s
    exact hs.same ((pickNominee_logs).mono
      fun _ ⟨_, _, _, _, h⟩ => Effect.concernsConsent_of_sends h)
      (congrArg Core.consentMissed hc) (congrArg Core.cfg hc)
  | respond | reject =>
    exact hs.of_core ((reply_logs).mono fun _ => Effect.concernsConsent_of_sends)
      (reply_core _ _ _ _ s)
  | nominateOwn | nominateNow => exact hs.commitNomination _ _ _ _ _
  | nominateDeferred i p =>
    have hclear : ConsentCounted (s.modifyPair i fun p => { p with pendingNomination := false }) :=
      hs.same (.of_log_eq rfl) rfl rfl
    exact hclear.commitNomination _ _ _ _ _
  | exhaust | expire | loseConsent =>
    exact hs.same ⟨[.onFailed, .setState .failed, s.failure _], rfl, by simp [failure,
      Effect.concernsConsent, Effect.resetsConsent, Effect.isKeepalive]⟩ rfl rfl
  | restart => exact hs.reset env
  | autoRestart now =>
    have hcount : ConsentCounted (s.countAutoRestart now) :=
      hs.renew [] rfl (by simp) rfl rfl
    exact hcount.reset env
  | _ => exact hs.same (.of_log_eq rfl) rfl rfl

theorem step_consentCounted (H : Hmac) (env : Env) (s : Session) (e : Event)
    (hs : ConsentCounted s) : ConsentCounted (s.step H env e) :=
  (step_steps H env s e).invariant (fun _ hact hu => act_consentCounted hact hu) hs

private theorem create_consentCounted (env : Env) {cfg : IceConfig} (w : Wiring)
    (controlling : Bool) (tiebreaker : ℕ) (hmax : 1 ≤ cfg.consentMaxFailures) :
    ConsentCounted (create env cfg w controlling tiebreaker) := by
  refine ⟨Nat.zero_le _, hmax, fun before hb => ?_⟩
  cases suffix_nil.mp hb

/-- Whenever consent is given up, fewer than `consent_max_failures` keepalives have been sent
since `consent_missed_` was last stored 0. -/
theorem consent_lost_early (H : Hmac) (env : Env) (cfg : IceConfig) (w : Wiring)
    (controlling : Bool) (tiebreaker : ℕ) (es : List Event) (hmax : 1 ≤ cfg.consentMaxFailures) :
    ∀ before,
      .consentLost :: before <:+ ((create env cfg w controlling tiebreaker).run H env es).log →
      keepalivesSince before < cfg.consentMaxFailures := by
  have hcount : ConsentCounted ((create env cfg w controlling tiebreaker).run H env es) :=
    run_invariant (step_consentCounted H env)
      (create_consentCounted env w controlling tiebreaker hmax) es
  have hcfg : ((create env cfg w controlling tiebreaker).run H env es).cfg = cfg :=
    run_invariant (I := fun u => u.cfg = cfg) (fun u e hu => (step_cfg H env u e).trans hu) rfl es
  intro before hb
  have hlt := hcount.early before hb
  rwa [hcfg] at hlt

/-- A nomination and three keepalives; the third one is not sent any more. -/
def unansweredKeepalives : List Input := missedKeepalive ++ [.event (.task (.keepalive 2))]

theorem consent_lost_after_two : ∃ before, .consentLost :: before <:+
      ((create .lan {} {} true 7).run zeroHmac .lan
        (unansweredKeepalives.map (·.toEvent zeroHmac))).log ∧
    keepalivesSince before < 3 := by
  have hplay : ((create .lan {} {} true 7).play .lan unansweredKeepalives).any
      (fun s => s.log.any (· = .consentLost)) = true := by decide +kernel
  obtain ⟨x, hx, rfl⟩ : ∃ x ∈ _, x = Effect.consentLost := by
    simpa using run_of_play_any hplay zeroHmac
  obtain ⟨newer, before, hlog⟩ := append_of_mem hx
  have hb : .consentLost :: before <:+ _ := ⟨newer, hlog.symm⟩
  exact ⟨before, hb, consent_lost_early _ .lan {} {} true 7 _ (by decide) before hb⟩

/-- Consent is given up for the default limit of three after two keepalives. -/
theorem two_keepalives_suffice :
    ¬ ∃ H : Hmac, ∀ before, .consentLost :: before <:+ ((create .lan {} {} true 7).run H .lan
      (unansweredKeepalives.map (·.toEvent H))).log → 3 ≤ keepalivesSince before := by
  rintro ⟨H, h⟩
  have hplay : ((create .lan {} {} true 7).play .lan unansweredKeepalives).any
      (fun s => s.log.tails.any fun l => l.head? = some .consentLost ∧ keepalivesSince l.tail = 2)
        = true := by decide +kernel
  obtain ⟨l, hl, hlost⟩ := any_eq_true.mp (run_of_play_any hplay H)
  obtain ⟨hhead, htwo⟩ := of_decide_eq_true hlost
  cases l with
  | nil => cases hhead
  | cons e before =>
    obtain rfl := some.inj hhead
    have hthree := h before ((mem_tails _ _).mp hl)
    rw [tail_cons] at htwo
    omega

/-! ### Refreshing consent -/

def outstanding (s : Session) : List TransactionId := (sinceReset s.log).filterMap Effect.probeTxn

def RestoresConsent (s t : Session) : Prop :=
  ∃ new, t.log = new ++ s.log ∧ ∃ x ∈ new, x.resetsConsent = true

theorem RestoresConsent.intro {u : Session} {x : Effect} (hx : x.resetsConsent = true)
    (h : x :: u.log <:+ t.log) (hs : s.log <:+ u.log) : RestoresConsent s t := by
  obtain ⟨a, ha⟩ := h
  obtain ⟨b, hb⟩ := hs
  exact ⟨a ++ x :: b, by simp [← ha, ← hb], x, by simp, hx⟩

/-- The event delivers an authenticated response to one of the outstanding probes. -/
def provesConsent (H : Hmac) (env : Env) (s : Session) (e : Event) : Prop :=
  ∃ d ∈ s.inbound e, ∃ m ∈ d.accepted H env,
    m.msgType = bindingResponse ∧ m.txnId ∈ s.outstanding

/-- The event delivers no authenticated response to anything else, and no request that
nominates a succeeded pair. -/
def onlyFreshProof (H : Hmac) (env : Env) (s : Session) (e : Event) : Prop :=
  ∀ d ∈ s.inbound e, ∀ m ∈ d.accepted H env,
    (m.msgType = bindingResponse → m.txnId ∈ s.outstanding) ∧
      ∀ p relay, ¬ d.session.nominatesNow env m d.cid d.fromTcp p relay

theorem restart_notConnected (hs : s.state = .connected) : (s.restart env).state ≠ .connected := by
  rw [restart, if_neg (by simp [hs])]
  obtain ⟨n, -, hc⟩ := reset_core env s
  have hstate : (s.reset env).state = .new := congrArg Core.state hc
  have hremote : (s.reset env).remoteCandidates = [] := congrArg Core.remoteCandidates hc
  generalize s.reset env = u at hstate hremote ⊢
  refine steps_notConnected (gather_steps (by rfl)
    (gatherLabels_subset (by rfl) (by rfl) (by rfl) (by rfl)) fun h => absurd hremote h.2.2) ?_
  rw [hstate]
  decide

theorem startChecking_notConnected : (s.startChecking env).state ≠ .connected := by
  refine steps_notConnected (s := s.setState .checking)
    (beginChecks_rebuilt_steps (by rfl) fun u _ => by rfl) ?_
  exact SessionState.noConfusion

theorem onKeepalive_notConnected (h : s.losesConsent) (hlast : s.autoRestartLast = 0) :
    (s.onKeepalive env).state ≠ .connected := by
  rw [onKeepalive_lost h]
  have hlost : s.withoutConsent.state = .connected := h.1
  have hl : s.withoutConsent.autoRestartLast = 0 := hlast
  generalize s.withoutConsent = u at hlost hl ⊢
  unfold onConsentLost notifyConsentLoss
  split_ifs with hr ha
  · exact startChecking_notConnected
  · dsimp only
    rw [if_pos (.inl hl)]
    exact restart_notConnected hlost
  · exact SessionState.noConfusion

theorem eventAllowed_notConnected {a : Label} (ha : s.eventAllowed env e a)
    (hreset : a = .refresh ∨ a = .restart ∨ a.nominates = true) (hs : s.state = .connected)
    (hlast : s.autoRestartLast = 0) : (s.step H env e).state ≠ .connected := by
  have hkeepalive (gen : ℕ) (hq : .keepalive gen ∈ s.queue) (hgen : s.keepaliveGen = gen)
      (hl : s.losesConsent) : (s.step H env (.task (.keepalive gen))).state ≠ .connected := by
    have hstep : s.step H env (.task (.keepalive gen)) =
        (s.dequeue (.keepalive gen)).onKeepalive env := by
      have hgen' : (s.dequeue (.keepalive gen)).keepaliveGen = gen := hgen
      rw [step, if_pos hq, runTask, if_pos hgen']
    rw [hstep]
    exact onKeepalive_notConnected hl hlast
  rcases hreset with rfl | rfl | hn
  · cases e with
    | task t =>
      cases t with
      | keepalive gen => exact hkeepalive gen ha.1 ha.2.1 ha.2.2
      | _ => exact ha.2.elim
    | _ => exact ha.elim
  · cases e with
    | restart => exact restart_notConnected hs
    | task t =>
      cases t with
      | keepalive gen => exact hkeepalive gen ha.1 ha.2.1 ha.2.2.1
      | _ => exact ha.2.elim
    | _ => exact ha.elim
  · cases a with
    | nominateOwn | nominateDeferred | nominateNow =>
      cases e with
      | task t => cases t <;> exact ha.2.elim
      | _ => exact ha.elim
    | _ => cases hn

theorem step_restores (h : RestoresConsent s (s.step H env e)) :
    ∃ a ∈ s.allowed H env e, a = .refresh ∨ a = .restart ∨ a.nominates = true := by
  obtain ⟨new, hn, x, hx, hr⟩ := h
  obtain ⟨new', hn', hlogged⟩ := steps_logs (step_steps H env s e)
  obtain rfl := append_cancel_right (hn.symm.trans hn')
  obtain ⟨l, hl, hx⟩ := hlogged x hx
  cases x with
  | consentReset => exact ⟨.refresh, hl _ hx, .inl rfl⟩
  | restarted | onAutoRestart => exact ⟨.restart, hl _ hx, .inr (.inl rfl)⟩
  | nominated =>
    obtain ⟨a, ha, hnom⟩ := hx
    exact ⟨a, hl a ha, .inr (.inr hnom)⟩
  | _ => cases hr

theorem refreshConsent_restores (h : s.log <:+ t.log) : RestoresConsent s t.refreshConsent :=
  .intro (x := .consentReset) rfl (suffix_refl (.consentReset :: t.log)) h

theorem onPathMtuAck_restores : RestoresConsent s (s.onPathMtuAck env) := by
  have hpath : Steps env ∅ s (advancePmtu env PathMtuProbe.onProbeAck
      ({ s with pmtuInflight := none, pmtuProbeGen := s.pmtuProbeGen + 1 }.noteMtuOutcome true)) :=
    Path.after (advancePmtu_steps) (steps_quiet (.silent rfl le_rfl))
  exact refreshConsent_restores (steps_log_suffix hpath)

theorem onStun_response_restores (hm : m.msgType = bindingResponse)
    (hs : s.state = .connected) : RestoresConsent s (s.onStun env m cid fromTcp) := by
  rw [onStun, if_neg (by rw [hm]; decide), if_pos hm]
  unfold handleSuccessResponse
  split_ifs with hp
  · exact onPathMtuAck_restores
  · exact refreshConsent_restores (suffix_refl _)

theorem onStun_nominates_restores (h : s.nominatesOn env m cid fromTcp) :
    RestoresConsent s (s.onStun env m cid fromTcp) := by
  obtain ⟨v, origin, ep, relay, c, tx, hleads, -, hrest⟩ := onStun_nominates h
  have hafter : Steps env Set.univ (v.commitNomination origin ep relay c tx)
      (v.onNominated env origin ep relay c tx) :=
    (NominationLicence.univ v).afterCommit origin ep relay c tx
  have hlog := (steps_log_suffix hafter).trans (steps_log_suffix hrest)
  refine .intro (x := .nominated origin v.controlling ep relay c tx) rfl ?_ hleads.log
  exact (suffix_cons (Effect.setState .connected) _).trans hlog

/-- While a session stays Connected, `consent_missed_` goes back to 0 only on an authenticated
response to a keepalive or probe sent since the last time exactly if no other response arrives
and no request nominates again. -/
theorem consent_refreshed_iff (H : Hmac) (env : Env) (cfg : IceConfig) (w : Wiring)
    (controlling : Bool) (tiebreaker : ℕ) (es : List Event) (e : Event) :
    let s := (create env cfg w controlling tiebreaker).run H env es
    s.state = .connected → (s.step H env e).state = .connected →
    ((RestoresConsent s (s.step H env e) → s.provesConsent H env e) ↔
      s.onlyFreshProof H env e) := by
  intro s hs ht
  have hcount : Counted s := run_invariant (step_counted H env) (create_counted ..) es
  have hlast : s.autoRestartLast = 0 := (hcount.connected hs).2.2
  generalize s = s at hs ht hlast
  constructor
  · intro hproof d hd m hm
    obtain ⟨⟨b, -, hq⟩, hstep⟩ := step_inbound H env hd
    have hst : d.session.state = .connected := hq.state.trans hs
    rw [onCarrierData_accepted hm] at hstep
    have hsuffix : s.log <:+ d.session.log := by
      obtain ⟨new, hn, -⟩ := hq.log
      exact ⟨new, hn.symm⟩
    have hrestores (h : RestoresConsent d.session (s.step H env e)) :
        m.msgType = bindingResponse ∧ m.txnId ∈ s.outstanding := by
      obtain ⟨new, hn, x, hx, hr⟩ := h
      obtain ⟨old, hold⟩ := hsuffix
      obtain ⟨d', hd', m', hm', hproves⟩ := hproof
        ⟨new ++ old, by rw [hn, ← hold, append_assoc], x, mem_append_left _ hx, hr⟩
      obtain rfl := some.inj (hd.symm.trans hd')
      obtain rfl := some.inj (hm.symm.trans hm')
      exact hproves
    refine ⟨fun hresp => ?_, fun p relay hn => ?_⟩
    · exact (hrestores (hstep ▸ onStun_response_restores hresp hst)).2
    · have hresp := (hrestores (hstep ▸ onStun_nominates_restores (.inr (.inr ⟨p, relay, hn⟩)))).1
      exact absurd (hn.1.symm.trans hresp) (by decide)
  · intro hfresh hrestores
    obtain ⟨a, ha, hreset⟩ := step_restores hrestores
    rcases ha with ha | ⟨d, hd, ha⟩
    · exact absurd ht (eventAllowed_notConnected ha hreset hs hlast)
    · obtain ⟨⟨b, -, hq⟩, -⟩ := step_inbound H env hd
      have hst : d.session.state = .connected := hq.state.trans hs
      rcases ha with ⟨hdata, -⟩ | ⟨m, -, hl⟩ | ⟨m, hm, ha⟩
      · obtain ⟨strays, moves, rfl⟩ := Label.eq_deliver hdata
        simp [Label.nominates] at hreset
      · cases a with
        | work | publish | srflx | rebuild | exhaust => simp [Label.nominates] at hreset
        | _ => exact hl.elim
      · obtain ⟨hresp, hnom⟩ := hfresh d hd m hm
        have hnone : ¬ d.session.nominatesOn env m d.cid d.fromTcp := by
          rintro (⟨p, hp⟩ | ⟨p, hp⟩ | ⟨p, relay, hp⟩)
          · exact absurd (hst.symm.trans hp.1.2.2) (by decide)
          · exact absurd (hst.symm.trans hp.1.2.2) (by decide)
          · exact hnom p relay hp
        rcases hreset with rfl | rfl | hn
        · rcases ha with ⟨hm', -⟩ | ⟨hn, -⟩
          · exact ⟨d, hd, m, hm, hm', hresp hm'⟩
          · exact absurd hn hnone
        · exact absurd ha.1 hnone
        · cases a with
          | nominateOwn p => exact absurd (.inl ⟨p, ha⟩) hnone
          | nominateDeferred p => exact absurd (.inr (.inl ⟨p, ha.1⟩)) hnone
          | nominateNow p relay => exact absurd ha.1 (hnom p relay)
          | _ => cases hn

theorem step_response_restores (hb : s.admits env cid b = true)
    (hm : (b.message env.net).msgType = bindingResponse) (hs : s.state = .connected) :
    RestoresConsent s (s.step H env (.udpData cid (b.build H))) := by
  have hstep : s.step H env (.udpData cid (b.build H)) =
      s.onStun env (b.message env.net) cid false := onCarrierData_build false hb
  rw [hstep]
  exact onStun_response_restores hm hs

theorem provesConsent_response (hb : s.admits env cid b = true)
    (h : s.provesConsent H env (.udpData cid (b.build H))) :
    (b.message env.net).txnId ∈ s.outstanding := by
  obtain ⟨d, hd, m, hm, -, hmem⟩ := h
  obtain rfl := some.inj hd
  obtain rfl := some.inj ((accepted_of_admits false hb).symm.trans hm)
  exact hmem

theorem onlyFreshProof_response (hb : s.admits env cid b = true)
    (hm : (b.message env.net).msgType = bindingResponse)
    (h : (b.message env.net).txnId ∈ s.outstanding) :
    s.onlyFreshProof H env (.udpData cid (b.build H)) := by
  intro d hd m hmem
  obtain rfl := some.inj hd
  obtain rfl := some.inj ((accepted_of_admits false hb).symm.trans hmem)
  refine ⟨fun _ => h, fun p relay hn => ?_⟩
  have hreq := hn.1
  rw [hm] at hreq
  exact absurd hreq (by decide)

/-- A response that arrives in Connected and leaves the session there. -/
def respondsConnected (env : Env) (txn : TransactionId) (s : Session) : Bool :=
  let b := peerResponse [2] txn
  s.admits env 6 b && decide (s.state = .connected) && decide ((b.message env.net).msgType =
    bindingResponse) && decide ((s.onStun env (b.message env.net) 6 false).state = .connected)

theorem step_respondsConnected {txn : TransactionId} (h : s.respondsConnected env txn = true) :
    s.state = .connected ∧
      (s.step H env (.udpData 6 ((peerResponse [2] txn).build H))).state = .connected ∧
      RestoresConsent s (s.step H env (.udpData 6 ((peerResponse [2] txn).build H))) := by
  simp only [respondsConnected, Bool.and_eq_true, decide_eq_true_eq] at h
  obtain ⟨⟨⟨hb, hs⟩, hm⟩, ht⟩ := h
  refine ⟨hs, ?_, step_response_restores hb hm hs⟩
  have hstep : s.step H env (.udpData 6 ((peerResponse [2] txn).build H)) =
      s.onStun env ((peerResponse [2] txn).message env.net) 6 false := onCarrierData_build false hb
  rw [hstep]
  exact ht

/-- The answer to the keepalive that followed the nomination. -/
theorem keepalive_answer_refreshes :
    let s := (create .lan {} {} true 7).run zeroHmac .lan
      (hostNominated.map (·.toEvent zeroHmac))
    let e : Event := .udpData 6 ((peerResponse [2] (Env.lan.txnId 11)).build zeroHmac)
    s.state = .connected ∧ (s.step zeroHmac .lan e).state = .connected ∧
      s.provesConsent zeroHmac .lan e := by
  have hplay : ((create .lan {} {} true 7).play .lan hostNominated).any (fun s =>
      s.respondsConnected .lan (Env.lan.txnId 11) && s.admits .lan 6 (peerResponse [2]
        (Env.lan.txnId 11)) && decide (Env.lan.txnId 11 ∈ s.outstanding)) = true := by
    decide +kernel
  have hall := run_of_play_any hplay zeroHmac
  have hiff := consent_refreshed_iff zeroHmac .lan {} {} true 7
    (hostNominated.map (·.toEvent zeroHmac))
    (.udpData 6 ((peerResponse [2] (Env.lan.txnId 11)).build zeroHmac))
  dsimp only at hiff ⊢
  generalize (create .lan {} {} true 7).run zeroHmac .lan
    (hostNominated.map (·.toEvent zeroHmac)) = s at hall hiff ⊢
  simp only [Bool.and_eq_true, decide_eq_true_eq] at hall
  obtain ⟨⟨hresp, hb⟩, hout⟩ := hall
  obtain ⟨hs, ht, hrest⟩ := step_respondsConnected (H := zeroHmac) hresp
  exact ⟨hs, ht, (hiff hs ht).mpr (onlyFreshProof_response hb (by decide) hout) hrest⟩

/-- The response to the check that led to the nomination is delivered once more. -/
theorem replayed_response_refreshes :
    ¬ ∃ H : Hmac, let s := (create .lan {} {} true 7).run H .lan (hostNominated.map (·.toEvent H))
      let e : Event := .udpData 6 ((peerResponse [2] (Env.lan.txnId 3)).build H)
      s.state = .connected → (s.step H .lan e).state = .connected →
        RestoresConsent s (s.step H .lan e) → s.provesConsent H .lan e := by
  rintro ⟨H, h⟩
  have hplay : ((create .lan {} {} true 7).play .lan hostNominated).any (fun s =>
      s.respondsConnected .lan (Env.lan.txnId 3) && s.admits .lan 6 (peerResponse [2]
        (Env.lan.txnId 3)) && decide (Env.lan.txnId 3 ∉ s.outstanding)) = true := by decide +kernel
  have hall := run_of_play_any hplay H
  simp only [Bool.and_eq_true, decide_eq_true_eq] at hall
  obtain ⟨⟨hresp, hb⟩, hout⟩ := hall
  obtain ⟨hs, ht, hrest⟩ := step_respondsConnected (H := H) hresp
  exact hout (provesConsent_response hb (h hs ht hrest))

end Session

end LinkIce
