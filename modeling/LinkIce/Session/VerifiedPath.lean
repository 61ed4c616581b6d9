import LinkIce.Session.Script

/-! Whether a controlled session is nominated on a path that it verified itself. -/
namespace LinkIce
open Stun List

namespace Effect

def asksFor (ep : Endpoint) (relay : Bool) (cid : Cid) (tx : TransportType) : Effect → Bool
  | requestReceived _ uc ep' cid' tx' relay' =>
    uc && decide (ep' = ep ∧ cid' = cid ∧ tx' = tx ∧ relay' = relay)
  | _ => false

def verifies (env : Env) (ep : Endpoint) (relay : Bool) (tx : TransportType) : Effect → Bool
  | checkSucceeded p =>
    decide (p.endpoint env.net = ep ∧ p.transportType = tx ∧ decide (p.loc.type = .relay) = relay)
  | _ => false

/-- Every nomination of a controlled session was asked for on its path, and the path verified,
since the restart before it. -/
def nominationsVerified (env : Env) : List Effect → Bool
  | [] => true
  | nominated _ false ep relay cid tx :: older =>
    (older.takeWhile (· ≠ .restarted)).any (asksFor ep relay cid tx) &&
      (older.takeWhile (· ≠ .restarted)).any (verifies env ep relay tx) &&
      nominationsVerified env older
  | _ :: older => nominationsVerified env older

theorem nominationsVerified_cons {env : Env} {e : Effect} (h : e.isNomination = false)
    {l : List Effect} : nominationsVerified env (e :: l) = nominationsVerified env l := by
  cases e with
  | nominated => cases h
  | _ => rfl

end Effect

namespace CheckPair

variable {p q : CheckPair}

/-- `q` stands for the same path as `p` and has made no progress of its own. -/
structure Inherits (p q : CheckPair) : Prop where
  loc : q.loc = p.loc
  rem : q.rem = p.rem
  transportType : q.transportType = p.transportType
  succeeded : q.state = .succeeded → p.state = .succeeded
  pending : q.pendingNomination = true → p.pendingNomination = true

theorem Inherits.refl (p : CheckPair) : Inherits p p := ⟨rfl, rfl, rfl, id, id⟩

theorem Inherits.trans {p q r : CheckPair} (hpq : Inherits p q) (hqr : Inherits q r) :
    Inherits p r :=
  ⟨hqr.loc.trans hpq.loc, hqr.rem.trans hpq.rem, hqr.transportType.trans hpq.transportType,
    fun h => hpq.succeeded (hqr.succeeded h), fun h => hpq.pending (hqr.pending h)⟩

theorem Evolves.inherits (h : Evolves p q) : Inherits p q := by
  refine ⟨h.loc, h.rem, h.transportType, fun hq => ?_, fun hq => h.pendingNomination ▸ hq⟩
  rcases h.state with hs | hs
  · rw [← hs, hq]
  · exact absurd hq hs.2

end CheckPair

namespace Session

open Effect

variable {H : Hmac} {env : Env} {A : Set Label} {s t : Session} {e : Effect} {q : CheckPair} {i : ℕ}

/-- What keeps nominations verified. A pair counts as Succeeded only after a check on its path
did; a put-off nomination is one that was asked for since the restart. -/
structure PathsVerified (env : Env) (s : Session) : Prop where
  log : nominationsVerified env s.log = true
  succeeded : ∀ p ∈ s.checkList, p.state = .succeeded →
    s.sinceRestart.any (verifies env (p.endpoint env.net) (p.loc.type = .relay) p.transportType)
      = true
  pending : ∀ p ∈ s.checkList, p.pendingNomination = true → s.slotFresh = true

def isPlain (e : Effect) : Prop := e ≠ .restarted ∧ e.isNomination = false

theorem isPlain_of_routine (h : e.isRoutine = true) : isPlain e := by
  cases e with
  | nominated | restarted => cases h
  | _ => exact ⟨by simp, rfl⟩

theorem isPlain_of_sends {p : Payload} (h : sends p e) : isPlain e := by
  cases e with
  | nominated | restarted => exact h.elim
  | _ => exact ⟨by simp, rfl⟩

theorem any_sinceRestart_of_extends {f : Effect → Bool} (h : Extends s t)
    (hs : s.sinceRestart.any f = true) : t.sinceRestart.any f = true := by
  obtain ⟨e, he, hf⟩ := any_eq_true.mp hs
  exact any_eq_true.mpr ⟨e, h.mem_sinceRestart he, hf⟩

theorem nominationsVerified_of_logs (hl : Logs isPlain s t)
    (hs : nominationsVerified env s.log = true) : nominationsVerified env t.log = true := by
  obtain ⟨new, hn, hp⟩ := hl
  rw [hn]
  clear hn
  induction new with
  | nil => exact hs
  | cons e new ih =>
    rw [cons_append, nominationsVerified_cons (hp e (by simp)).2]
    exact ih fun e he => hp e (by simp [he])

namespace PathsVerified

/-- Every pair comes from one that was there before. -/
theorem inherit (h : PathsVerified env s) (hl : Logs isPlain s t)
    (hslot : s.slotFresh = true → t.slotFresh = true)
    (hp : ∀ q ∈ t.checkList, ∃ p ∈ s.checkList, CheckPair.Inherits p q) : PathsVerified env t := by
  have hext : Extends s t := hl.mono fun _ he => he.1
  refine ⟨nominationsVerified_of_logs hl h.log, fun q hq hs => ?_, fun q hq hs => ?_⟩
  · obtain ⟨p, hpl, hpq⟩ := hp q hq
    have := any_sinceRestart_of_extends hext (h.succeeded p hpl (hpq.succeeded hs))
    rwa [CheckPair.endpoint, hpq.loc, hpq.rem, hpq.transportType]
  · obtain ⟨p, hpl, hpq⟩ := hp q hq
    exact hslot (h.pending p hpl (hpq.pending hs))

theorem same (h : PathsVerified env s) (hl : Logs isPlain s t)
    (hslot : s.slotFresh = true → t.slotFresh = true) (hc : t.checkList = s.checkList) :
    PathsVerified env t :=
  h.inherit hl hslot fun q hq => ⟨q, hc ▸ hq, .refl q⟩

theorem evolve (h : PathsVerified env s) (hl : Logs isPlain s t)
    (hslot : s.slotFresh = true → t.slotFresh = true)
    (hc : List.Forall₂ CheckPair.Evolves s.checkList t.checkList) : PathsVerified env t := by
  refine h.inherit hl hslot fun q hq => ?_
  obtain ⟨p, hp, hpq⟩ := exists_left_of_mem hc hq
  exact ⟨p, hp, hpq.inherits⟩

theorem fresh (hlog : nominationsVerified env t.log = true)
    (hp : ∀ q ∈ t.checkList, q.state ≠ .succeeded ∧ q.pendingNomination = false) :
    PathsVerified env t :=
  ⟨hlog, fun q hq hs => absurd hs (hp q hq).1, fun q hq hs => by simp [(hp q hq).2] at hs⟩

theorem commit (h : PathsVerified env s) {ep : Endpoint} {relay : Bool} {cid : Cid}
    {tx : TransportType} (origin : NominationOrigin)
    (hv : s.controlling = false → s.sinceRestart.any (asksFor ep relay cid tx) = true ∧
      s.sinceRestart.any (verifies env ep relay tx) = true) :
    PathsVerified env (s.commitNomination origin ep relay cid tx) := by
  have hext : Extends s (s.commitNomination origin ep relay cid tx) :=
    ⟨[.setState .connected, .nominated origin s.controlling ep relay cid tx], rfl, by simp⟩
  refine ⟨?_, fun p hp hs => ?_, fun p hp hs => ?_⟩
  · change nominationsVerified env
      (.setState .connected :: .nominated origin s.controlling ep relay cid tx :: s.log) = true
    rw [nominationsVerified_cons rfl]
    cases hc : s.controlling with
    | true => exact h.log
    | false =>
      obtain ⟨ha, hv⟩ := hv hc
      simp only [nominationsVerified, Bool.and_eq_true]
      exact ⟨⟨ha, hv⟩, h.log⟩
  · exact any_sinceRestart_of_extends hext (h.succeeded p hp hs)
  · exact slotFresh_of_extends hext ⟨rfl, rfl, rfl, rfl⟩ (h.pending p hp hs)

end PathsVerified

theorem succeedPair_verified {p : CheckPair} (hp : s.checkList[i]? = some p)
    (h : PathsVerified env s) : PathsVerified env (s.succeedPair i p) := by
  have hext : Extends s (s.succeedPair i p) := Logs.emit s (e := .checkSucceeded p) (by simp)
  have hmem {q : CheckPair} (hq : q ∈ (s.succeedPair i p).checkList) :
      (∃ r ∈ s.checkList, CheckPair.Inherits r q) ∨
        q.loc = p.loc ∧ q.rem = p.rem ∧ q.transportType = p.transportType ∧
          (q.pendingNomination = true → p.pendingNomination = true) := by
    obtain ⟨r, hr, hrq⟩ := exists_left_of_mem
      (CheckPair.unfreezeSiblings_repaints p.loc.foundation p.rem.foundation _) hq
    have hrq := (CheckPair.Evolves.of_repaints hrq).inherits
    rcases mem_modify hr with hr | ⟨p', hp', rfl⟩
    · exact .inl ⟨r, hr, hrq⟩
    · rw [hp] at hp'
      obtain rfl := Option.some.inj hp'
      exact .inr ⟨hrq.loc, hrq.rem, hrq.transportType, hrq.pending⟩
  refine ⟨?_, fun q hq hs => ?_, fun q hq hs => ?_⟩
  · exact (nominationsVerified_cons (e := .checkSucceeded p) rfl).trans h.log
  · rcases hmem hq with ⟨r, hr, hrq⟩ | ⟨hl, hr, ht, -⟩
    · have := any_sinceRestart_of_extends hext (h.succeeded r hr (hrq.succeeded hs))
      rwa [CheckPair.endpoint, hrq.loc, hrq.rem, hrq.transportType]
    · refine any_eq_true.mpr ⟨.checkSucceeded p, mem_sinceRestart_self (by simp), ?_⟩
      simp [verifies, CheckPair.endpoint, hl, hr, ht]
  · have hslot := slotFresh_of_extends hext ⟨rfl, rfl, rfl, rfl⟩
    rcases hmem hq with ⟨r, hr, hrq⟩ | ⟨-, -, -, hpend⟩
    · exact hslot (h.pending r hr (hrq.pending hs))
    · exact hslot (h.pending p (mem_of_getElem? hp) (hpend hs))

theorem markPendingNomination_inherits (hq : q ∈ (s.markPendingNomination i).checkList)
    (hs : q.state = .succeeded) :
    ∃ p ∈ s.checkList, p.state = .succeeded ∧ q.loc = p.loc ∧ q.rem = p.rem ∧
      q.transportType = p.transportType := by
  rcases mem_modify hq with hq | ⟨p, hp, rfl⟩
  · exact ⟨q, hq, hs, rfl, rfl, rfl⟩
  · refine ⟨p, mem_of_getElem? hp, ?_, rfl, rfl, rfl⟩
    dsimp only at hs
    split_ifs at hs
    exact hs

theorem pickNominee_inherits (hq : q ∈ (s.pickNominee env).checkList) :
    ∃ p ∈ s.checkList, CheckPair.Inherits p q := by
  unfold pickNominee at hq
  split at hq
  · exact ⟨q, hq, .refl q⟩
  · rename_i i _
    obtain ⟨r, hr, hrq⟩ := exists_left_of_mem (sendCheck_scheduled env _ i).checkList hq
    rcases mem_modify hr with hr | ⟨p, hp, rfl⟩
    · exact ⟨r, hr, hrq.inherits⟩
    · have hflag : CheckPair.Inherits p { p with nomineeCheckSent := true } :=
        ⟨rfl, rfl, rfl, id, id⟩
      exact ⟨p, mem_of_getElem? hp, hflag.trans hrq.inherits⟩

theorem asksFor_of_mem {ep : Endpoint} {relay : Bool} {cid : Cid} {tx : TransportType}
    (h : ∃ txn, .requestReceived txn true ep cid tx relay ∈ s.sinceRestart) :
    s.sinceRestart.any (asksFor ep relay cid tx) = true := by
  obtain ⟨txn, h⟩ := h
  exact any_eq_true.mpr ⟨_, h, by simp [asksFor]⟩

/-- The action nominates a path other than the one it verified, or marks a pair for a
nomination that was asked for before the restart. -/
def Label.isUnverified : Label → Bool
  | .nominateNow p relay _ => decide (p.loc.type = .relay) != relay
  | .nominateDeferred _ fits => !fits
  | .trigger stale _ _ => stale
  | _ => false

theorem act_pathsVerified {l : Option Label} (h : Act env s l t)
    (hv : ∀ a ∈ l, Label.isUnverified a = false) (hs : PathsVerified env s) :
    PathsVerified env t := by
  have hslot (hl : l ≠ some .restart) : s.slotFresh = true → t.slotFresh = true :=
    act_slotFresh h hl
  have hreset (u : Session) (hu : nominationsVerified env u.log = true) :
      PathsVerified env (u.reset env) := by
    obtain ⟨new, hn, hq⟩ := reset_log env u
    obtain ⟨n, -, hc⟩ := reset_core env u
    refine .fresh ?_ ?_
    · have hplain : nominationsVerified env (new ++ .restarted :: u.log) = true :=
        nominationsVerified_of_logs (s := u.emit .restarted)
          (t := { u with log := new ++ .restarted :: u.log })
          ⟨new, rfl, fun e he => isPlain_of_routine (isRoutine_of_quiet (hq e he))⟩ hu
      rw [hn]
      exact hplain
    · rw [show (u.reset env).checkList = [] from congrArg Core.checkList hc]
      simp
  cases h with
  | quiet h | work h | release h =>
    exact hs.same ((Logs.of_quiet h.toKeepsCore).mono fun _ => isPlain_of_routine)
      (hslot (by simp)) h.checkList
  | deliver h =>
    exact hs.same ((Logs.of_keepsCore h.toKeepsCore).mono fun _ => isPlain_of_routine)
      (hslot (by simp)) h.checkList
  | turnInput h =>
    exact hs.same ((Logs.of_keepsCore h).mono fun _ => isPlain_of_routine) (hslot (by simp))
      h.checkList
  | gather | waitRemote | startChecking | close =>
    exact hs.same (.emit _ ⟨by simp, rfl⟩) (hslot (by simp)) rfl
  | recover =>
    exact hs.same ⟨[.setState .checking, .consentReset], rfl, by simp [isPlain, isNomination]⟩
      (hslot (by simp)) rfl
  | forget => exact .fresh hs.log (by simp [forgetRemote])
  | rebuild =>
    refine .fresh ?_ fun q hq => ?_
    · rw [buildCheckList_log]
      exact hs.log
    · obtain ⟨hf, hst⟩ := buildCheckList_fresh env s hq
      exact ⟨by rcases hst with h | h <;> simp [h], hf.pendingNomination⟩
  | check i | liteCheck i =>
    refine hs.evolve ((sendCheck_logs).mono ?_) (hslot (by simp))
      (sendCheck_scheduled env s i).checkList
    rintro _ ⟨_, _, h⟩
    exact isPlain_of_sends h
  | repaint ps h =>
    exact hs.evolve (.of_log_eq rfl) (hslot (by simp)) (h.imp fun _ _ => .of_repaints)
  | pick =>
    refine hs.inherit ((pickNominee_logs).mono ?_) (hslot (by simp)) fun q hq =>
      pickNominee_inherits hq
    rintro _ ⟨_, _, _, _, h⟩
    exact isPlain_of_sends h
  | succeed i p h hp => exact succeedPair_verified hp hs
  | received | publish | announce | probe | probing | refresh | keepalive | lapse =>
    exact hs.same (.emit _ ⟨by simp, rfl⟩) (hslot (by simp)) rfl
  | respond | reject =>
    exact hs.same ((reply_logs).mono fun _ => isPlain_of_sends) (hslot (by simp))
      (congrArg Core.checkList (reply_core _ _ _ _ s))
  | defer i ep relay cid tx hr =>
    refine ⟨hs.log, fun q hq hst => ?_, fun q hq hst => slotFresh_iff.mpr hr⟩
    obtain ⟨p, hp, hps, hl, hrem, htx⟩ := markPendingNomination_inherits hq hst
    have := hs.succeeded p hp hps
    rwa [CheckPair.endpoint, hl, hrem, htx]
  | trigger loc rem =>
    have hfresh := hv _ rfl
    refine ⟨hs.log, fun q hq hst => ?_, fun q hq hst => ?_⟩
    · rcases mem_append.mp hq with hq | hq
      · exact hs.succeeded q hq hst
      · rw [mem_singleton.mp hq] at hst
        cases hst
    · rcases mem_append.mp hq with hq | hq
      · exact hslot (by simp) (hs.pending q hq hst)
      · rw [mem_singleton.mp hq] at hst
        simp only [Label.isUnverified, hst, Bool.true_and, Bool.not_eq_false'] at hfresh
        exact hslot (by simp) hfresh
  | nominateOwn p cid relay h hc => exact hs.commit _ fun hn => by simp [hc] at hn
  | nominateDeferred i p h hc hn hp =>
    have hfits := hv _ rfl
    simp only [Label.isUnverified, Bool.not_eq_false'] at hfits
    have hclear : PathsVerified env
        (s.modifyPair i fun p => { p with pendingNomination := false }) := by
      refine hs.inherit (.of_log_eq rfl) id fun q hq => ?_
      rcases mem_modify hq with hq | ⟨p, hp, rfl⟩
      · exact ⟨q, hq, .refl q⟩
      · exact ⟨p, mem_of_getElem? hp, rfl, rfl, rfl, id, fun hf => by cases hf⟩
    refine hclear.commit _ fun _ => ?_
    obtain ⟨q, hq, hqp⟩ := hn
    simp only [slotFits, Bool.and_eq_true, decide_eq_true_eq, beq_iff_eq] at hfits
    refine ⟨asksFor_of_mem (slotFresh_iff.mp (hs.pending q hq hqp)), ?_⟩
    refine any_eq_true.mpr ⟨_, hp, ?_⟩
    simp only [verifies, decide_eq_true_eq]
    exact ⟨hfits.1.1, hfits.1.2, hfits.2⟩
  | nominateNow p ep relay cid tx hc hp hst he ht hr =>
    have hrelay := hv _ rfl
    simp only [Label.isUnverified, bne_eq_false_iff_eq] at hrelay
    refine hs.commit _ fun _ => ⟨asksFor_of_mem hr, ?_⟩
    have := hs.succeeded p hp hst
    rwa [he, ht, hrelay] at this
  | exhaust | expire | loseConsent =>
    exact hs.same ⟨[.onFailed, .setState .failed, s.failure _], rfl,
      by simp [isPlain, isNomination, failure]⟩ (hslot (by simp)) rfl
  | restart => exact hreset s hs.log
  | autoRestart now => exact hreset _ hs.log
  | _ => exact hs.same (.of_log_eq rfl) (hslot (by simp)) rfl

/-- An authenticated message makes a controlled session nominate a path that it has not
verified: a USE-CANDIDATE request whose first pair succeeded over a relay though the request
did not come through it, or the other way round; a response to a pair marked for nomination
while the slot names another path; or a request that lets a triggered check take over a slot
from before the last restart. -/
def nominatesUnverified (env : Env) (m : StunMessage) (cid : Cid) (fromTcp : Bool) (s : Session) :
    Prop :=
  (∃ p relay, s.nominatesNow env m cid fromTcp p relay ∧ decide (p.loc.type = .relay) ≠ relay) ∨
    (∃ p, s.nominatesDeferred m p ∧ s.slotFits env p = false) ∨
    (m.msgType = bindingRequest ∧ (s.readsStaleSlot m ∨
      (s.losesConsentAtOnce ∧ ∃ p relay, s.nominatesNow env m cid fromTcp p relay)))

def misnominates (H : Hmac) (env : Env) (s : Session) (e : Event) : Prop :=
  ∃ d ∈ s.inbound e, ∃ m ∈ d.accepted H env,
    d.session.nominatesUnverified env m d.cid d.fromTcp

private theorem misnominates_of_allowed {e : Event} {a : Label} (h : a ∈ s.allowed H env e)
    (ha : Label.isUnverified a = true) : s.misnominates H env e := by
  rcases h with h | ⟨d, hd, ⟨h, -⟩ | ⟨m, -, h⟩ | ⟨m, hm, h⟩⟩
  · cases a with
    | nominateNow | nominateDeferred | trigger =>
      cases e with
      | task k => cases k <;> exact h.2.elim
      | _ => exact h.elim
    | _ => cases ha
  · obtain ⟨strays, moves, rfl⟩ := Label.eq_deliver h
    cases ha
  · cases a with
    | work | publish | srflx | rebuild | exhaust => cases ha
    | _ => exact h.elim
  · refine ⟨d, hd, m, hm, ?_⟩
    cases a with
    | nominateNow p relay revives =>
      exact .inl ⟨p, relay, h.1, by simpa [Label.isUnverified] using ha⟩
    | nominateDeferred p fits =>
      have hfits : fits = false := by simpa [Label.isUnverified] using ha
      exact .inr (.inl ⟨p, h.1, h.2.symm.trans hfits⟩)
    | trigger stale => exact .inr (.inr ⟨h.1, h.2.1 ha⟩)
    | _ => cases ha

theorem step_pathsVerified {e : Event} (h : ¬ s.misnominates H env e)
    (hs : PathsVerified env s) : PathsVerified env (s.step H env e) := by
  refine (step_steps H env s e).invariant (fun {u v l} hl hstep hu => ?_) hs
  refine act_pathsVerified hstep (fun a ha => ?_) hu
  by_contra hn
  exact h (misnominates_of_allowed (hl a ha) (by simpa using hn))

/-- In a run without such messages every nomination of the controlled session is on a path
that it verified. -/
theorem run_nominationsVerified (H : Hmac) (env : Env) (cfg : IceConfig) (w : Wiring)
    (controlling : Bool) (tiebreaker : ℕ) (es : List Event)
    (h : Along (step H env) (fun s e => ¬ s.misnominates H env e)
      (create env cfg w controlling tiebreaker) es) :
    nominationsVerified env ((create env cfg w controlling tiebreaker).run H env es).log = true :=
  (h.invariant (I := PathsVerified env) (fun _ _ => step_pathsVerified)
    (.fresh rfl (by simp [create]))).log

def useCandidateArrives : List Input :=
  [.event .gather, .event (.addRemoteCandidates [1] [2] [peerHost, peerHost2] false),
    .stun 7 (peerRequest [0, 0, 0, 0] (Env.lan.txnId 100) true true 5)]

/-- Enough for a message not to nominate an unverified path. -/
private def harmless (env : Env) (s : Session) : Input → Bool
  | .event _ => true
  | .stun _ b =>
    let m := b.message env.net
    if m.msgType = bindingRequest then
      m.useCandidate && s.checkList.all fun p => p.state ≠ .succeeded
    else s.checkList.all fun p => !p.pendingNomination || s.slotFits env p

private theorem not_misnominates_of_harmless (s : Session) (i : Input)
    (hf : (s.feed env i).isSome = true) (hi : harmless env s i = true) :
    ¬ s.misnominates H env (i.toEvent H) := by
  rintro ⟨d, hd, m, hm, hbad⟩
  cases i with
  | event e =>
    simp only [feed, Option.isSome_ite] at hf
    rw [Input.toEvent, inbound_isLocal hf] at hd
    cases hd
  | stun cid b =>
    obtain rfl := Option.some.inj hd
    simp only [feed, Option.isSome_ite] at hf
    obtain rfl := Option.some.inj ((accepted_of_admits false hf).symm.trans hm)
    have hnow {p : CheckPair} {relay : Bool}
        (h : s.nominatesNow env (b.message env.net) cid false p relay) : False := by
      simp only [harmless, if_pos h.1, Bool.and_eq_true, all_eq_true] at hi
      obtain ⟨-, ⟨-, -, hp, j, -, hj⟩, -⟩ := h
      exact absurd hp (by simpa using hi.2 p (mem_of_getElem? hj))
    rcases hbad with ⟨p, relay, h, -⟩ | ⟨p, ⟨⟨hr, -⟩, ⟨j, hj⟩, -, hp⟩, hfits⟩ |
        ⟨hr, h | ⟨-, p, relay, h⟩⟩
    · exact hnow h
    · have hne : (b.message env.net).msgType ≠ bindingRequest := by rw [hr]; decide
      simp only [harmless, if_neg hne, all_eq_true] at hi
      have := hi p (mem_of_getElem? (pairOf_eq_some.mp hj).2)
      simp [hp, hfits] at this
    · simp only [harmless, if_pos hr, Bool.and_eq_true] at hi
      rw [h.1] at hi
      exact absurd hi.1 (by decide)
    · exact hnow h

def checkConfirms : List Input :=
  useCandidateArrives ++ [.stun 7 (peerResponse [2] (Env.lan.txnId 3))]

theorem nominated_after_check :
    ((create .lan {} {} false 7).play .lan checkConfirms).any (·.state = .connected) = true ∧
      nominationsVerified .lan ((create .lan {} {} false 7).run zeroHmac .lan
        (checkConfirms.map (·.toEvent zeroHmac))).log = true := by
  have hsafe : (create .lan {} {} false 7).playAlong .lan (harmless .lan) checkConfirms = true := by
    decide +kernel
  exact ⟨by decide +kernel, run_nominationsVerified _ _ _ _ _ _ _
    (along_of_play not_misnominates_of_harmless hsafe)⟩

/-- A second USE-CANDIDATE overwrites the slot before the first pair succeeds. -/
def slotOverwritten : List Input :=
  useCandidateArrives ++
    [.stun 11 (peerRequest [0, 0, 0, 0] (Env.lan.txnId 101) true true 5),
      .stun 7 (peerResponse [2] (Env.lan.txnId 3))]

theorem nominated_on_other_path :
    ¬ ∃ H : Hmac, nominationsVerified .lan ((create .lan {} {} false 7).run H .lan
      (slotOverwritten.map (·.toEvent H))).log = true := by
  rintro ⟨H, h⟩
  have hplay : ((create .lan {} {} false 7).play .lan slotOverwritten).any
      (fun s => !nominationsVerified .lan s.log) = true := by decide +kernel
  have hbad := run_of_play_any hplay H
  rw [h] at hbad
  cases hbad

end Session

end LinkIce
