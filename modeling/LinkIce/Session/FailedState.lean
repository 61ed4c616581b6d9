import LinkIce.Session.LockDiscipline

/-! Whether Failed is final: what can wake a failed session up. -/
namespace LinkIce
open Stun List

namespace Effect

/-- `newer` may come after `older` if nothing happens to a failed session. -/
def mayFollow (newer older : Effect) : Prop :=
  (older = .setState .failed → ∀ st, newer = .setState st → st = .failed) ∧
    (older = .onFailed → ∀ ep, newer ≠ .onConnected ep)

def isStatus : Effect → Bool
  | setState _ | onConnected _ | onFailed => true
  | _ => false

theorem mayFollow_of_not_status {newer older : Effect} (h : newer.isStatus = false) :
    newer.mayFollow older := by
  constructor
  · rintro - st rfl
    cases h
  · rintro - ep rfl
    cases h

end Effect

namespace Session

variable {H : Hmac} {env : Env} {A : Set Label} {s t u : Session} {cid : Cid} {e : Effect}
  {fromTcp relay : Bool} {l : Option Label} {m : StunMessage} {p : CheckPair}

/-- Once stored or reported, the failure is the last word. -/
structure FailureFinal (s : Session) : Prop where
  order : s.log.Pairwise Effect.mayFollow
  stored : .setState .failed ∈ s.log → s.state = .failed
  reported : .onFailed ∈ s.log → s.state = .failed

namespace FailureFinal

theorem congr (h : FailureFinal s) (hl : t.log = s.log) (hs : t.state = s.state) :
    FailureFinal t := by
  refine ⟨hl ▸ h.order, ?_, ?_⟩
  all_goals rw [hl, hs]
  exacts [h.stored, h.reported]

theorem emit_other (h : FailureFinal s) {e : Effect} (he : e.isStatus = false) :
    FailureFinal (s.emit e) := by
  refine ⟨pairwise_cons.mpr ⟨fun _ _ => Effect.mayFollow_of_not_status he, h.order⟩, ?_, ?_⟩
  all_goals
    intro hm
    rcases mem_cons.mp hm with rfl | hm
    · cases he
  exacts [h.stored hm, h.reported hm]

theorem logs (h : FailureFinal s) (hl : Logs (fun e => e.isStatus = false) s t)
    (hs : t.state = s.state) : FailureFinal t := by
  obtain ⟨new, hn, hp⟩ := hl
  have hnot {e : Effect} (he : e.isStatus = true) (hm : e ∈ t.log) : e ∈ s.log := by
    rw [hn] at hm
    rcases mem_append.mp hm with hm | hm
    · rw [hp e hm] at he
      cases he
    · exact hm
  refine ⟨?_, fun hm => hs.trans (h.stored (hnot rfl hm)),
    fun hm => hs.trans (h.reported (hnot rfl hm))⟩
  rw [hn]
  refine pairwise_append.mpr ⟨?_, h.order, fun e he _ _ =>
    Effect.mayFollow_of_not_status (hp e he)⟩
  exact pairwise_of_forall_mem_list fun e he _ _ => Effect.mayFollow_of_not_status (hp e he)

/-- A state may be stored unless the session has failed. -/
theorem setState (h : FailureFinal s) {st : SessionState} (hs : st = .failed ∨ s.state ≠ .failed) :
    FailureFinal (s.setState st) := by
  refine ⟨pairwise_cons.mpr ⟨fun e he => ⟨?_, ?_⟩, h.order⟩, fun hm => ?_, fun hm => ?_⟩
  · rintro rfl st' hst
    cases hst
    exact hs.resolve_right (not_not.mpr (h.stored he))
  · rintro - ep hep
    cases hep
  · rcases mem_cons.mp hm with heq | hm
    · cases heq
      rfl
    · exact hs.resolve_right (not_not.mpr (h.stored hm))
  · rcases mem_cons.mp hm with heq | hm
    · cases heq
    · exact hs.resolve_right (not_not.mpr (h.reported hm))

theorem emit_onFailed (h : FailureFinal s) (hs : s.state = .failed) :
    FailureFinal (s.emit .onFailed) := by
  refine ⟨pairwise_cons.mpr ⟨fun e _ => ⟨?_, ?_⟩, h.order⟩, fun _ => hs, fun _ => hs⟩
  · rintro - st hst
    cases hst
  · rintro - ep hep
    cases hep

theorem emit_onConnected (h : FailureFinal s) (ep : Endpoint) (hs : s.state = .connected) :
    FailureFinal (s.emit (.onConnected ep)) := by
  have hne : s.state ≠ .failed := by simp [hs]
  refine ⟨pairwise_cons.mpr ⟨fun e he => ⟨?_, ?_⟩, h.order⟩, fun hm => ?_, fun hm => ?_⟩
  · rintro - st hst
    cases hst
  · rintro rfl
    exact absurd (h.reported he) hne
  · exact h.stored (by simpa [emit] using hm)
  · exact h.reported (by simpa [emit] using hm)

theorem fail (h : FailureFinal s) (origin : FailureOrigin) : FailureFinal (s.fail origin) :=
  ((h.emit_other rfl).setState (.inl rfl)).emit_onFailed rfl

theorem commitNomination (h : FailureFinal s) (origin : NominationOrigin) (ep : Endpoint)
    (relay : Bool) (cid : Cid) (tx : TransportType) (hs : s.state ≠ .failed) :
    FailureFinal (s.commitNomination origin ep relay cid tx) :=
  ((h.emit_other rfl).setState (.inr hs)).congr rfl rfl

theorem reset (h : FailureFinal s) (env : Env) (hs : s.state ≠ .failed) :
    FailureFinal (s.reset env) := by
  obtain ⟨new, hn, hq⟩ := reset_log env s
  have hmid : FailureFinal { s with log := new ++ .restarted :: s.log } := by
    refine (h.emit_other (e := .restarted) rfl).logs ⟨new, rfl, fun e he => ?_⟩ rfl
    have := hq e he
    cases e <;> simp_all [Effect.isQuiet, Effect.isStatus]
  have hnew : FailureFinal (Session.setState .new { s with log := new ++ .restarted :: s.log }) :=
    hmid.setState (.inr hs)
  exact hnew.congr hn rfl

end FailureFinal

theorem sends_not_status {p : Payload} (h : sends p e) : e.isStatus = false := by
  cases e <;> first | rfl | exact h.elim

private theorem routine_not_status (h : e.isRoutine = true) : e.isStatus = false := by
  cases e <;> first | rfl | cases h

/-- No action ends a failure but a `gather` and a nomination that do not look at the state. -/
theorem act_failureFinal (h : Act env s l t) (hg : l ≠ some (.gather true))
    (hn : ∀ p relay, l ≠ some (.nominateNow p relay true)) (hs : FailureFinal s) :
    FailureFinal t := by
  have hne {st : SessionState} (h : s.state = st) (hst : st ≠ .failed := by decide) :
      s.state ≠ .failed := h ▸ hst
  cases h with
  | quiet h | work h | release h =>
    exact hs.logs ((Logs.of_quiet h.toKeepsCore).mono fun _ => routine_not_status) h.state
  | deliver h =>
    exact hs.logs ((Logs.of_keepsCore h.toKeepsCore).mono fun _ => routine_not_status) h.state
  | turnInput h => exact hs.logs ((Logs.of_keepsCore h).mono fun _ => routine_not_status) h.state
  | gather => exact hs.setState (.inr fun h => hg (by simp [h]))
  | waitRemote h => exact hs.setState (.inr (hne h))
  | startChecking h => exact hs.setState (.inr (by rcases h with h | h | h <;> exact hne h))
  | recover h =>
    exact ((hs.emit_other (e := .consentReset) rfl).congr (t := ({ s with
      consentRecoveryAttempts := s.consentRecoveryAttempts + 1 } : Session).refreshConsent)
        rfl rfl).setState (.inr (hne h))
  | refresh => exact (hs.emit_other (e := .consentReset) rfl).congr rfl rfl
  | keepalive txn => exact (hs.emit_other (e := .keepaliveSent txn) rfl).congr rfl rfl
  | lapse => exact (hs.emit_other (e := .consentLost) rfl).congr rfl rfl
  | rebuild =>
    exact hs.congr (buildCheckList_log) (congrArg Core.state (buildCheckList_core env s))
  | check i | liteCheck i =>
    exact hs.logs ((sendCheck_logs).mono fun _ ⟨_, _, h⟩ => sends_not_status h)
      (sendCheck_scheduled env s i).state
  | pick =>
    exact hs.logs ((pickNominee_logs).mono fun _ ⟨_, _, _, _, h⟩ => sends_not_status h)
      (congrArg Core.state (pickNominee_core env s))
  | succeed i p => exact (hs.emit_other (e := .checkSucceeded p) rfl).congr rfl rfl
  | received | publish | probing => exact hs.emit_other rfl
  | respond | reject =>
    exact hs.logs ((reply_logs).mono fun _ => sends_not_status)
      (congrArg Core.state (reply_core _ _ _ _ s))
  | nominateOwn p cid relay h => exact hs.commitNomination _ _ _ _ _ (hne h)
  | nominateDeferred i p h =>
    exact (hs.congr (t := s.modifyPair i fun p => { p with pendingNomination := false })
      rfl rfl).commitNomination _ _ _ _ _ (hne h)
  | nominateNow p ep relay =>
    exact hs.commitNomination _ _ _ _ _ fun h => hn p relay (by simp [h])
  | announce ep h => exact hs.emit_onConnected ep h
  | probe cid size => exact (hs.emit_other (e := .udpSend cid _) rfl).congr rfl rfl
  | exhaust | expire | loseConsent => exact hs.fail _
  | restart h => exact hs.reset env h
  | autoRestart now h =>
    have hcount : FailureFinal (s.countAutoRestart now) := (hs.emit_other
      (e := .onAutoRestart (s.autoRestartAttempts + 1) s.cfg.autoRestartMaxAttempts) rfl).congr
        rfl rfl
    exact hcount.reset env (hne h)
  | close => exact hs.setState (.inl rfl)
  | _ => exact hs.congr rfl rfl

theorem steps_failureFinal (h : Steps env A s t) (hg : .gather true ∉ A)
    (hn : ∀ p relay, .nominateNow p relay true ∉ A) (hs : FailureFinal s) : FailureFinal t := by
  refine h.invariant (I := FailureFinal) (fun {u v l} ha hstep hu => ?_) hs
  refine act_failureFinal hstep ?_ ?_ hu
  · rintro rfl
    exact hg (ha _ rfl)
  · rintro p relay rfl
    exact hn p relay (ha _ rfl)

/-- The event stores a new state in a failed session: a `gather`, or a USE-CANDIDATE request
that finds its pair succeeded. -/
def revives (H : Hmac) (env : Env) (s : Session) (e : Event) : Prop :=
  s.state = .failed ∧ (e = .gather ∨ ∃ d ∈ s.inbound e, ∃ m ∈ d.accepted H env, ∃ p relay,
    d.session.nominatesNow env m d.cid d.fromTcp p relay)

theorem step_failureFinal {e : Event} (h : ¬ s.revives H env e) (hs : FailureFinal s) :
    FailureFinal (s.step H env e) := by
  refine steps_failureFinal (step_steps H env s e) ?_ ?_ hs
  · rintro (hg | ⟨d, -, hg⟩)
    · cases e with
      | gather => exact h ⟨by simpa using hg.symm, .inl rfl⟩
      | task k => cases k <;> exact hg.2
      | _ => exact hg
    · rcases hg with ⟨hg, -⟩ | ⟨m, -, hg⟩ | ⟨m, -, hg⟩
      · cases hg
      · exact hg
      · exact hg
  · rintro p relay (hn | ⟨d, hd, hn⟩)
    · cases e with
      | task k => cases k <;> exact hn.2
      | _ => exact hn
    · rcases hn with ⟨hn, -⟩ | ⟨m, -, hn⟩ | ⟨m, hm, hn⟩
      · cases hn
      · exact hn
      · have hst : d.session.state = .failed := by simpa using hn.2.symm
        obtain ⟨⟨b, -, hq⟩, -⟩ := step_inbound H env hd
        exact h ⟨hq.state.symm.trans hst, .inr ⟨d, hd, m, hm, p, relay, hn.1⟩⟩

theorem act_state (h : Act env s l t) : t.state = s.state ∨ .setState t.state ∈ t.log := by
  have hreset (u : Session) : .setState (u.reset env).state ∈ (u.reset env).log := by
    obtain ⟨new, hn, -⟩ := reset_log env u
    rw [hn]
    exact mem_cons_self
  cases h with
  | quiet h | work h | release h | deliver h | turnInput h => exact .inl h.state
  | gather | waitRemote | startChecking | recover | close => exact .inr mem_cons_self
  | rebuild => exact .inl (congrArg Core.state (buildCheckList_core env s))
  | check i | liteCheck i => exact .inl (sendCheck_scheduled env s i).state
  | pick => exact .inl (congrArg Core.state (pickNominee_core env s))
  | respond | reject => exact .inl (congrArg Core.state (reply_core _ _ _ _ s))
  | nominateOwn | nominateDeferred | nominateNow => exact .inr mem_cons_self
  | exhaust | expire | loseConsent =>
    exact .inr (mem_cons_of_mem _ mem_cons_self)
  | restart => exact .inr (hreset s)
  | autoRestart now => exact .inr (hreset _)
  | _ => exact .inl rfl

theorem step_failed_stored (H : Hmac) (env : Env) (s : Session) (e : Event)
    (hs : s.state = .failed → .setState .failed ∈ s.log) :
    (s.step H env e).state = .failed → .setState .failed ∈ (s.step H env e).log := by
  refine (step_steps H env s e).invariant
    (I := fun u => u.state = .failed → .setState .failed ∈ u.log)
    (fun {u v l} _ hstep hu hv => ?_) hs
  rcases act_state hstep with h | h
  · exact (act_log_suffix hstep).subset (hu (h.symm.trans hv))
  · rwa [hv] at h

/-- A state other than Failed is stored on the way from `s` to `t`. -/
def Wakes (s t : Session) : Prop :=
  ∃ st, st ≠ .failed ∧ ∃ u : Session, s.log <:+ u.log ∧ .setState st :: u.log <:+ t.log

theorem Wakes.not_pairwise (h : Wakes s t) (hs : .setState .failed ∈ s.log) :
    ¬ t.log.Pairwise Effect.mayFollow := by
  intro ht
  obtain ⟨st, hst, u, hsu, hut⟩ := h
  have hu := pairwise_cons.mp (ht.sublist hut.sublist)
  exact hst ((hu.1 _ (hsu.subset hs)).1 rfl st rfl)

theorem Wakes.before (h : Wakes t u) (hst : Steps env A s t) : Wakes s u := by
  obtain ⟨st, hne, v, htv, hvu⟩ := h
  exact ⟨st, hne, v, (steps_log_suffix hst).trans htv, hvu⟩

theorem Wakes.trans (h : Wakes s t) (htu : Steps env A t u) : Wakes s u := by
  obtain ⟨st, hne, v, hsv, hvt⟩ := h
  exact ⟨st, hne, v, hsv, hvt.trans (steps_log_suffix htu)⟩

theorem gather_wakes (env : Env) (s : Session) : Wakes s (s.gather env) := by
  refine Wakes.trans (A := Set.univ) ?_
    (gathering_steps (Set.subset_univ _) fun _ => Set.subset_univ _)
  exact ⟨.gathering, by decide, s, suffix_refl _, suffix_refl _⟩

theorem onNominated_wakes {origin : NominationOrigin} {ep : Endpoint}
    {tx : TransportType} : Wakes s (s.onNominated env origin ep relay cid tx) := by
  refine Wakes.trans (A := Set.univ) ?_ ((NominationLicence.univ s).afterCommit origin ep relay
    cid tx)
  exact ⟨.connected, by decide, s.emit (.nominated origin s.controlling ep relay cid tx),
    suffix_cons _ _, suffix_refl _⟩

theorem acceptRequest_wakes (hc : s.controlling = false)
    (hp : s.nomineeSucceeded env m cid fromTcp p) :
    Wakes s (s.acceptRequest env m cid fromTcp) := by
  rw [acceptRequest_nominated hc hp]
  have hans : Steps env Set.univ s (s.answerRequest m cid fromTcp) :=
    answerRequest_steps m cid fromTcp (Set.mem_univ _)
  refine Wakes.trans (A := Set.univ) ?_
    (maybeTriggerCheckFromPeer_steps _ fun _ _ _ _ _ _ => Set.mem_univ _)
  exact onNominated_wakes.before hans

theorem handleBindingRequest_wakes (h : s.nominatesNow env m cid fromTcp p relay) :
    Wakes s (s.handleBindingRequest env m cid fromTcp) := by
  obtain ⟨-, hp, -, hrole⟩ := h
  unfold handleBindingRequest
  rcases hrole with ⟨hr, hc⟩ | ⟨hg, hc, hnf⟩
  · rw [if_neg (by simp [hr])]
    exact acceptRequest_wakes hc hp
  · rw [if_pos hg.1]
    rcases handleRoleConflict_eq env s m hg.1 with ⟨-, he⟩ | ⟨hn, -⟩
    · rcases flipRole_eq env s with ⟨hf, -⟩ | ⟨-, hflip⟩
      · exact absurd hf hnf
      · rw [he, hflip]
        have hstep : Steps env Set.univ s { s with controlling := !s.controlling } :=
          .visible (.flip s) (Set.mem_univ _)
        refine Wakes.before ?_ hstep
        exact acceptRequest_wakes (by simp [hc]) hp
    · exact absurd hg hn

/-- The condition is exact: such a step does store another state. -/
theorem step_wakes {e : Event} (h : s.revives H env e) : Wakes s (s.step H env e) := by
  obtain ⟨-, rfl | ⟨d, hd, m, hm, p, relay, hn⟩⟩ := h
  · exact gather_wakes env s
  · rw [(step_inbound H env hd).2, onCarrierData_accepted hm, onStun,
      if_neg (by rw [hn.1]; decide), if_neg (by rw [hn.1]; decide), if_pos hn.1]
    have hin : Steps env (s.allowed H env e) s d.session := inbound_steps hd
    exact (handleBindingRequest_wakes hn).before hin

/-- In a run the failure is the last word if and only if no step revives a failed session. -/
theorem failure_final_iff (H : Hmac) (env : Env) (cfg : IceConfig) (w : Wiring)
    (controlling : Bool) (tiebreaker : ℕ) (es : List Event) :
    ((create env cfg w controlling tiebreaker).run H env es).log.Pairwise Effect.mayFollow ↔
      Along (step H env) (fun s e => ¬ s.revives H env e)
        (create env cfg w controlling tiebreaker) es := by
  refine observed_iff_along (I := FailureFinal)
    (J := fun s => s.state = .failed → .setState .failed ∈ s.log)
    (fun s e h => ?_) (step_failed_stored H env) (fun s e => step_failureFinal)
    (fun s h => h.order) (fun s e hs hr hlog => ?_) (by simp [create]) ?_
  · exact h.sublist (steps_log_suffix (step_steps H env s e)).sublist
  · have hr := not_not.mp hr
    exact (step_wakes hr).not_pairwise (hs hr.1) hlog
  · exact ⟨List.Pairwise.nil, by simp [create], by simp [create]⟩

/-- `close` before a posted `gather` runs: the session leaves Failed again. -/
theorem gather_after_close_revives :
    ¬ ∃ H : Hmac, ((create .lan {} {} true 7).run H .lan [.close, .gather]).log.Pairwise
      Effect.mayFollow := by
  rintro ⟨H, h⟩
  have hw := gather_wakes .lan (create .lan {} {} true 7).close
  exact hw.not_pairwise (mem_cons_self) h

end Session

end LinkIce
