import LinkIce.Session.ConsentFreshness

/-! A lite agent leaves the checks and the control to its peer. -/
namespace LinkIce
open Stun List

/-- A binding request to the peer. The probes of STUN servers carry no attribute; a keepalive
carries none either and is noted on its own, as is a path-MTU probe. -/
def Effect.asksPeer : Effect → Bool
  | udpSend _ (.stun b) | tcpSend _ (.stun b) | relaySend _ (.stun b) =>
    b.msgType = bindingRequest && !b.attrs.isEmpty
  | keepaliveSent _ | mtuProbeSent _ => true
  | _ => false

/-- The action sends a check for a lite session, takes control, or connects. -/
def Label.activates : Label → Bool
  | .flip | .liteCheck => true
  | l => l.nominates

namespace Session

variable {H : Hmac} {env : Env} {s t : Session} {e : Effect} {l : Option Label}

theorem not_asksPeer_of_quiet (h : e.isQuiet = true) : e.asksPeer = false := by
  cases e with
  | udpSend cid p | tcpSend cid p | relaySend ep p =>
    cases p with
    | raw => rfl
    | stun b =>
      have hb : b.attrs.isEmpty = true := h
      simp [Effect.asksPeer, hb]
  | turnSend => rfl
  | _ => cases h

theorem not_asksPeer_of_routine (h : e.isRoutine = true) : e.asksPeer = false := by
  cases e with
  | onData => rfl
  | udpSend | tcpSend | relaySend | turnSend =>
    exact not_asksPeer_of_quiet (by simpa [Effect.isRoutine, Effect.isData] using h)
  | _ => cases h

theorem not_asksPeer_of_sends {b : StunBuilder} (hb : b.msgType ≠ bindingRequest)
    (h : sends (.stun b) e) : e.asksPeer = false := by
  cases e with
  | udpSend cid p | tcpSend cid p | relaySend ep p =>
    obtain rfl : p = .stun b := h
    simp [Effect.asksPeer, hb]
  | _ => exact h.elim

/-- The session leaves everything to its peer. -/
structure Passive (s : Session) : Prop where
  controlled : s.controlling = false
  silent : ∀ e ∈ s.log, e.asksPeer = false

/-- A session that is lite, controlled and not connected asks its peer for nothing. -/
theorem act_silent (h : Act env s l t) (hl : ∀ a ∈ l, a.activates = false)
    (hlite : s.cfg.liteMode = true) (hc : s.controlling = false) (hs : s.state ≠ .connected) :
    Logs (·.asksPeer = false) s t := by
  cases h with
  | quiet h | work h | release h =>
    exact (Logs.of_keepsCore h.toKeepsCore).mono fun _ => not_asksPeer_of_quiet
  | deliver h => exact (Logs.of_keepsCore h.toKeepsCore).mono fun _ => not_asksPeer_of_routine
  | turnInput h => exact (Logs.of_keepsCore h).mono fun _ => not_asksPeer_of_routine
  | gather | waitRemote | startChecking | close | succeed | received | publish | lapse | refresh =>
    exact .emit _ rfl
  | recover => exact ⟨[.setState .checking, .consentReset], rfl, by simp [Effect.asksPeer]⟩
  | respond fromTcp cid ep txn =>
    have hb : (s.responseMessage txn).msgType = bindingResponse := rfl
    exact (reply_logs).mono fun _ => not_asksPeer_of_sends (by rw [hb]; decide)
  | reject fromTcp cid ep txn =>
    have hb : (s.roleConflictMessage txn).msgType = bindingError := rfl
    exact (reply_logs).mono fun _ => not_asksPeer_of_sends (by rw [hb]; decide)
  | exhaust | expire | loseConsent =>
    exact ⟨[.onFailed, .setState .failed, s.failure _], rfl, by simp [Effect.asksPeer, failure]⟩
  | rebuild => exact .of_log_eq (buildCheckList_log)
  | restart => exact reset_logs rfl rfl fun _ => not_asksPeer_of_quiet
  | check i h => simp [h] at hlite
  | keepalive txn h => simp [h] at hlite
  | pick _ h => simp [h] at hc
  | announce ep h | probe cid size h | probing txn h | autoRestart now h => exact absurd h hs
  | liteCheck | flip | nominateOwn | nominateDeferred | nominateNow => cases hl _ rfl
  | _ => exact .of_log_eq rfl

theorem candidateStarts_checking (h : .liteCheck ∈ s.candidateStarts env) :
    s.state = .checking := by
  by_contra hs
  rw [candidateStarts, if_neg hs] at h
  exact h

theorem stunAllowed_passive {m : StunMessage} {cid : Cid} {fromTcp : Bool} {a : Label}
    (hm : m.msgType = bindingRequest) (hu : m.useCandidate = false) (hr : s.sameRole m = false)
    (h : a ∈ s.stunAllowed env m cid fromTcp) : a.activates = false := by
  have hflip : ¬ s.flipsOn m := by
    rintro (⟨he, -⟩ | ⟨-, hg⟩)
    · exact absurd (he.symm.trans hm) (by decide)
    · exact absurd (hg.1.symm.trans hr) (by decide)
  have hanswer : ¬ s.answersCheck m := fun hans => absurd (hans.1.symm.trans hm) (by decide)
  have huse : ¬ m.useCandidate = true := by simp [hu]
  cases a with
  | flip => exact absurd h hflip
  | liteCheck =>
    rcases h.2.2 with hf | ⟨-, hc⟩
    exacts [absurd hf hflip, absurd hc huse]
  | nominateOwn => exact absurd h.1 hanswer
  | nominateDeferred => exact absurd h.1.1 hanswer
  | nominateNow => exact absurd h.1.2.1.1 huse
  | _ => rfl

/-- The event may flip the role of the session, make it run its check list although it is
lite, or nominate a path. -/
def activates (H : Hmac) (env : Env) (s : Session) (e : Event) : Prop :=
  ∃ a ∈ s.allowed H env e, a.activates = true

theorem act_passive (h : Act env s l t) (hl : ∀ a ∈ l, a.activates = false)
    (hlite : s.cfg.liteMode = true) (hc : s.state ≠ .connected) (hs : s.Passive) : t.Passive := by
  have hflip : l ≠ some .flip := by
    rintro rfl
    cases hl _ rfl
  obtain ⟨new, hn, hnew⟩ := act_silent h hl hlite hs.controlled hc
  refine ⟨(act_controlling h hflip).trans hs.controlled, fun e he => ?_⟩
  rw [hn] at he
  rcases mem_append.mp he with he | he
  exacts [hnew e he, hs.silent e he]

theorem step_passive {e : Event} (h : ¬ s.activates H env e) (hlite : s.cfg.liteMode = true)
    (hc : s.state ≠ .connected) (hs : s.Passive) :
    (s.step H env e).Passive ∧ (s.step H env e).state ≠ .connected := by
  have hnone : ∀ a ∈ s.allowed H env e, a.activates = false := by
    intro a ha
    by_contra hact
    exact h ⟨a, ha, by simpa using hact⟩
  have hstep := (step_steps H env s e).invariant
    (I := fun u => (u.Passive ∧ u.state ≠ .connected) ∧ u.cfg.liteMode = true)
    (fun {u v l} hl hact hu => ?_) ⟨⟨hs, hc⟩, hlite⟩
  · exact hstep.1
  · have hl' : ∀ a ∈ l, a.activates = false := fun a ha => hnone a (hl a ha)
    refine ⟨⟨act_passive hact hl' hu.2 hu.1.2 hu.1.1,
      act_notConnected hact (fun a ha => ?_) hu.1.2⟩,
      (congrArg IceConfig.liteMode (act_cfg hact).1).trans hu.2⟩
    have hact' := hl' a ha
    cases a <;> first | exact hact' | rfl

/-- In a run without such events a lite session stays controlled and asks for nothing. -/
theorem lite_passive (H : Hmac) (env : Env) (cfg : IceConfig) (w : Wiring) (controlling : Bool)
    (tiebreaker : ℕ) (es : List Event) (hlite : cfg.liteMode = true)
    (h : Along (step H env) (fun s e => ¬ s.activates H env e)
      (create env cfg w controlling tiebreaker) es) :
    ∀ fs, fs <+: es → ((create env cfg w controlling tiebreaker).run H env fs).Passive := by
  intro fs hp
  have hrun := (h.restrict hp).invariant
    (I := fun s => (s.Passive ∧ s.state ≠ .connected) ∧ s.cfg.liteMode = true)
    (fun s e hn hs => ⟨step_passive hn hs.2 hs.1.2 hs.1.1,
      (congrArg IceConfig.liteMode (step_cfg H env s e)).trans hs.2⟩)
    ⟨⟨⟨by simp [create, hlite], by simp [create]⟩, by simp [create]⟩, hlite⟩
  exact hrun.1.1

/-! ### What wakes a lite agent -/

/-- The STUN server is on the peer's host, so that gathering opens the connection that the peer's
requests come in on. -/
def lite : IceConfig :=
  { liteMode := true, stunServers := [some ⟨Inet.dotted 10 0 0 2, 6000⟩] }

/-- The second batch of a trickling peer arrives while the list waits for its checks. -/
def secondBatch : List Input :=
  [.event .gather, .event (.addRemoteCandidates [1] [2] [peerHost] false),
    .event (.addRemoteCandidates [1] [2] [peerHost2] false)]

/-- A peer that is lite as well claims to be controlled. -/
def conflictArrives : List Input :=
  [.event .gather, .event (.task .stunProbes),
    .stun 4 (peerRequest [0, 0, 0, 0] (Env.lan.txnId 99) false false 9)]

/-- The batch makes the agent check, and the request makes it controlling. -/
theorem lite_agent_wakes :
    ¬ (∃ H : Hmac, ((create .lan lite {} true 7).run H .lan
        (secondBatch.map (·.toEvent H))).Passive) ∧
      ¬ ∃ H : Hmac, ((create .lan lite {} true 7).run H .lan
        (conflictArrives.map (·.toEvent H))).Passive := by
  constructor
  · rintro ⟨H, h⟩
    have hplay : ((create .lan lite {} true 7).play .lan secondBatch).any
        (fun s => s.log.any (·.asksPeer)) = true := by decide +kernel
    obtain ⟨e, he, ha⟩ := any_eq_true.mp (run_of_play_any hplay H)
    rw [h.silent e he] at ha
    cases ha
  · rintro ⟨H, h⟩
    have hplay : ((create .lan lite {} true 7).play .lan conflictArrives).any
        (fun s => s.controlling) = true := by decide +kernel
    have hrun := run_of_play_any hplay H
    rw [h.controlled] at hrun
    cases hrun

/-- The first batch starts no check, and a request of a controlling peer is only answered. -/
def quietLite : List Input :=
  [.event .gather, .event (.task .stunProbes),
    .event (.addRemoteCandidates [1] [2] [peerHost] false),
    .stun 4 (peerRequest [0, 0, 0, 0] (Env.lan.txnId 99) true false 9)]

theorem lite_agent_stays_passive :
    ((create .lan lite {} true 7).play .lan quietLite).any
      (fun s => s.state = .checking && s.checkList ≠ []) = true ∧
    ∀ fs, fs <+: quietLite.map (·.toEvent zeroHmac) →
      ((create .lan lite {} true 7).run zeroHmac .lan fs).Passive := by
  refine ⟨by decide +kernel, lite_passive _ .lan lite {} true 7 _ rfl ⟨?_, ?_, ?_, ?_, trivial⟩⟩
  · rintro ⟨a, h | ⟨d, hd, -⟩, ha⟩
    · cases a with
      | flip | liteCheck | nominateOwn | nominateDeferred | nominateNow => exact h.elim
      | _ => cases ha
    · cases hd
  · rintro ⟨a, h | ⟨d, hd, -⟩, ha⟩
    · cases a with
      | flip | liteCheck | nominateOwn | nominateDeferred | nominateNow => exact h.2.elim
      | _ => cases ha
    · cases hd
  · rintro ⟨a, h | ⟨d, hd, -⟩, ha⟩
    · cases a with
      | liteCheck => exact absurd (candidateStarts_checking h.2) (by decide +kernel)
      | flip | nominateOwn | nominateDeferred | nominateNow => exact h.elim
      | _ => cases ha
    · cases hd
  · rintro ⟨a, h, ha⟩
    rw [stunAllowed_passive (by decide) (by decide) (by decide +kernel)
      (stunAllowed_of_admits (by decide +kernel) h)] at ha
    cases ha

end Session

end LinkIce
