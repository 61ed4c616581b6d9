import LinkIce.Session.Nominee

/-! Which pair a regular controller nominates when the answers to its checks race. -/
namespace LinkIce
open Stun List

/-- What happens to a check list while its checks are answered. -/
inductive Arrival
  | answer (m : StunMessage)
  | tick
  deriving DecidableEq

def Arrival.txn : Arrival → Option TransactionId
  | answer m => some m.txnId
  | tick => none

namespace CheckPair

variable {p : CheckPair}

/-- A scan without valid pairs changes nothing; the only valid pair is the best. -/
theorem bestValid_of_unique {ps : List CheckPair} {i : ℕ} (hi : ps[i]? = some p)
    (hv : p.valid = true) (h : ∀ j q, ps[j]? = some q → q.valid = true → j = i) :
    bestValid ps = some i := by
  let scan (best : Option (CheckPair × ℕ)) (pi : CheckPair × ℕ) : Option (CheckPair × ℕ) :=
    if pi.1.valid && best.all fun b => b.1.priority < pi.1.priority then some pi else best
  have hskip (l : List (CheckPair × ℕ)) (hl : ∀ x ∈ l, x.1.valid = false)
      (best : Option (CheckPair × ℕ)) : l.foldl scan best = best := by
    induction l generalizing best with
    | nil => rfl
    | cons x l ih =>
      have hx : scan best x = best := by simp [scan, hl x mem_cons_self]
      rw [foldl_cons, hx, ih fun y hy => hl y (mem_cons_of_mem _ hy)]
  obtain ⟨hlt, hp⟩ := List.getElem?_eq_some_iff.mp hi
  have hinvalid (k : ℕ) (qs : List CheckPair) (hq : ∀ j q, qs[j]? = some q → ps[k + j]? = some q)
      (hk : ∀ j < qs.length, k + j ≠ i) : ∀ x ∈ qs.zipIdx k, x.1.valid = false := by
    rintro ⟨q, n⟩ hx
    obtain ⟨j, hj⟩ := mem_iff_getElem?.mp (fst_mem_of_mem_zipIdx hx)
    by_contra hvalid
    exact hk j (List.getElem?_eq_some_iff.mp hj).1
      (h (k + j) q (hq j q hj) (Bool.eq_true_of_not_eq_false hvalid))
  have hsplit : ps.zipIdx = (ps.take i).zipIdx ++ (p, i) :: (ps.drop (i + 1)).zipIdx (i + 1) := by
    conv_lhs => rw [← take_append_drop i ps, drop_eq_getElem_cons hlt, hp]
    rw [zipIdx_append, zipIdx_cons]
    simp [Nat.min_eq_left hlt.le]
  have hbefore := hinvalid 0 (ps.take i) (fun j q hj => by
      rw [List.getElem?_take] at hj
      split_ifs at hj
      rwa [Nat.zero_add]) (fun j hj => by simp at hj; omega)
  have hafter := hinvalid (i + 1) (ps.drop (i + 1)) (fun j q hj => by
      rwa [List.getElem?_drop] at hj) (fun j _ => by omega)
  change (ps.zipIdx.foldl scan none).map (·.2) = some i
  rw [hsplit, foldl_append, hskip _ hbefore, foldl_cons, hskip _ hafter]
  simp [scan, hv]

/-- A pair that is not pending does not become pending. -/
def Completes (p q : CheckPair) : Prop := p.isPending = false → q.isPending = false

theorem Completes.refl (p : CheckPair) : Completes p p := id

theorem completes_of_settled {p q : CheckPair} (h : Session.Settled p q) : Completes p q :=
  fun hp => by rw [h hp, hp]

end CheckPair

namespace Session

open Effect

variable {env : Env} {s t u : Session} {i : ℕ} {m : StunMessage} {p : CheckPair}
  {rest : List Arrival} {txn : TransactionId}

/-! ### Ticks send no USE-CANDIDATE once the nominee is out -/

/-- The checks that the scheduler may send carry no USE-CANDIDATE. -/
def PendingPlain (s : Session) : Prop :=
  s.cfg.aggressiveNomination = false ∧
    ∀ p ∈ s.checkList, p.isPending = true → p.nomineeCheckSent = false

theorem Tick.pendingPlain (h : Tick env s t) (hs : s.PendingPlain) : t.PendingPlain := by
  refine ⟨by rw [h.scheduled.cfg, hs.1], fun q hq hpend => ?_⟩
  obtain ⟨p, hp, he, hset⟩ := exists_left_of_mem (forall₂_and h.scheduled.checkList h.settled) hq
  rw [he.nomineeCheckSent]
  refine hs.2 p hp ?_
  by_contra hn
  rw [hset (by simpa using hn)] at hpend
  exact hn hpend

theorem Tick.plain (h : Tick env s t) (hs : s.PendingPlain) :
    Logs (·.useCandidateTxn = none) s t := by
  cases h with
  | repaint | read => exact .of_log_eq rfl
  | check i h =>
    refine (sendCheck_logs).mono ?_
    rintro e ⟨p, hp, he⟩
    rw [useCandidateTxn_of_sends he, checkMessage_useCandidateTxn, hs.1,
      hs.2 p (mem_of_getElem? hp) (h p hp)]
    simp

theorem Ticks.plain (h : Ticks env s t) (hs : s.PendingPlain) :
    Logs (·.useCandidateTxn = none) s t := by
  suffices Logs (·.useCandidateTxn = none) s t ∧ t.PendingPlain from this.1
  induction h with
  | refl => exact ⟨.refl s, hs⟩
  | tail _ ht ih => exact ⟨ih.1.trans (ht.plain ih.2), ht.pendingPlain ih.2⟩

/-! ### A nominee whose follow-up does not leave -/

private theorem transmit_closed {b : StunBuilder} (h : s.pathOpen env p = false) :
    (s.transmit env p b).log = s.log := by
  unfold pathOpen at h
  unfold transmit
  dsimp only
  split_ifs at h ⊢ with ht hp hc hr hc
  · rfl
  · exact ensureRemoteTcpCid_log env _ s
  · simp [hp, hc] at h
  · simp [hr] at h
  · exact ensureRemoteCid_log env _ s
  · simp [hc] at h

private theorem sendCheck_silent (hp : s.checkList[i]? = some p)
    (h : s.checkLeaves env p = false) : (s.sendCheck env i).log = s.log := by
  rw [sendCheck, hp]
  dsimp only
  split_ifs with hr
  · obtain ⟨ps, hs, -⟩ := failPair_repaints s i
    rw [hs]
  · have hclosed : s.drawn.pathOpen env p = false :=
      (Bool.and_eq_false_iff.mp h).resolve_left (by simp [Nat.not_le.mp hr])
    exact transmit_closed
      (Eq.trans (pathOpen_congr (s := s.drawn) rfl rfl rfl rfl rfl) hclosed)

theorem pickNominee_silent (h : s.pickLeaves env = false) : (s.pickNominee env).log = s.log := by
  unfold pickLeaves at h
  unfold pickNominee
  cases hi : CheckPair.bestValid s.checkList with
  | none => rfl
  | some i =>
    cases hp : s.checkList[i]? with
    | none => simp [sendCheck, modifyPair, hp]
    | some p =>
      simp only [hi, hp, Option.any_some] at h
      refine sendCheck_silent (p := { p with nomineeCheckSent := true }) ?_
        ((checkLeaves_flagged).trans h)
      simp [modifyPair, hp]

/-! ### After the first answer -/

private theorem failPair_completes :
    List.Forall₂ CheckPair.Completes s.checkList (s.failPair i).checkList := by
  unfold failPair
  split
  · exact forall₂_refl .refl _
  · exact forall₂_trans (fun _ _ _ h h' hp => h' (h hp))
      (forall₂_modify (R := CheckPair.Completes) .refl (fun _ _ => rfl) _ i)
      ((unfreezeSiblings_settled _ _ _).imp fun _ _ => CheckPair.completes_of_settled)

theorem sendCheck_completes :
    List.Forall₂ CheckPair.Completes s.checkList (s.sendCheck env i).checkList := by
  unfold sendCheck
  split
  · exact forall₂_refl .refl _
  · rename_i p hp
    split_ifs
    · exact failPair_completes
    · rw [show ∀ (b t), (transmit env p b t).checkList = t.checkList from
        fun b t => congrArg Core.checkList (transmit_core env t p b)]
      exact forall₂_modify (R := CheckPair.Completes) .refl (fun _ => by intro h; exact h) _ i

/-- The nominee has been picked, and nothing more is going to be sent for it. -/
structure Decided (txn : TransactionId) (s : Session) : Prop where
  controlling : s.controlling = true
  regular : s.cfg.aggressiveNomination = false
  selected : s.nomineeSelected = true
  nominee : ∀ p ∈ s.checkList, p.nomineeCheckSent = true → p.isPending = false ∧ p.txnId = txn

namespace Decided

theorem frame (h : Decided txn s) (hc : t.controlling = s.controlling) (hcfg : t.cfg = s.cfg)
    (hn : t.nomineeSelected = s.nomineeSelected)
    (hp : List.Forall₂ (fun p q => SameNominee p q ∧ CheckPair.Completes p q) s.checkList
      t.checkList) : Decided txn t := by
  refine ⟨hc.trans h.controlling, by rw [hcfg, h.regular], hn.trans h.selected, fun q hq hf => ?_⟩
  obtain ⟨p, hpl, ⟨htxn, hflag⟩, hcomp⟩ := exists_left_of_mem hp hq
  obtain ⟨hdone, hid⟩ := h.nominee p hpl (hflag ▸ hf)
  exact ⟨hcomp hdone, htxn.trans hid⟩

theorem scheduled (h : Decided txn s) (hs : Scheduled s t)
    (hp : List.Forall₂ CheckPair.Completes s.checkList t.checkList) : Decided txn t :=
  h.frame hs.controlling hs.cfg (congrArg Core.nomineeSelected hs.core)
    (forall₂_and (hs.checkList.imp fun _ _ he => ⟨he.txnId, he.nomineeCheckSent⟩) hp)

theorem pendingPlain (h : Decided txn s) : s.PendingPlain := by
  refine ⟨h.regular, fun p hp hpend => ?_⟩
  by_contra hf
  rw [(h.nominee p hp (by simpa using hf)).1] at hpend
  cases hpend

end Decided

theorem pickNominee_decided (hc : s.controlling = true) (hr : s.cfg.aggressiveNomination = false)
    (hun : ∀ q ∈ s.checkList, q.nomineeCheckSent = false)
    (hi : CheckPair.bestValid s.checkList = some i) (hp : s.checkList[i]? = some p)
    (hdone : p.isPending = false) : Decided p.txnId (s.pickNominee env) := by
  have hflag : Decided p.txnId (({ s with nomineeSelected := true } : Session).modifyPair i fun p =>
      { p with nomineeCheckSent := true }) := by
    refine ⟨hc, hr, rfl, fun q hq hf => ?_⟩
    rcases mem_modify hq with hq | ⟨p', hp', rfl⟩
    · rw [hun q hq] at hf
      cases hf
    · have hp' : s.checkList[i]? = some p' := hp'
      obtain rfl := Option.some.inj (hp.symm.trans hp')
      exact ⟨hdone, rfl⟩
  rw [pickNominee, hi]
  exact hflag.scheduled (sendCheck_scheduled env _ i) sendCheck_completes

/-! ### The race -/

def arrive (env : Env) (s : Session) : Arrival → Session
  | .answer m => s.handleCheckResponse env m
  | .tick => s.runNextCheck env

theorem noteResponse_log : (s.noteResponse env m p).log = s.log := by
  unfold noteResponse learnPrflx sampleRtt noteCandidateTypes pushLocal locked
  split_ifs <;> split <;> first | rfl | split_ifs <;> rfl

theorem recordSuccess_plain (env : Env) (m : StunMessage) (i : ℕ) (p : CheckPair) (s : Session) :
    Logs (·.useCandidateTxn = none) s (s.recordSuccess env m i p) :=
  (Logs.of_log_eq (noteResponse_log)).trans (.emit _ rfl)

theorem recordSuccess_sameNominee (env : Env) (m : StunMessage) (i : ℕ) (p : CheckPair)
    (s : Session) : List.Forall₂ (fun p q => SameNominee p q ∧ CheckPair.Completes p q) s.checkList
      (s.recordSuccess env m i p).checkList := by
  have hnote : (s.noteResponse env m p).checkList = s.checkList :=
    congrArg Core.checkList (noteResponse_core env m p s)
  rw [← hnote, recordSuccess]
  refine forall₂_and (succeedPair_sameNominee) ?_
  exact forall₂_trans (fun _ _ _ h h' hp => h' (h hp))
    (forall₂_modify (R := CheckPair.Completes) .refl (fun _ _ => rfl) _ i)
    ((unfreezeSiblings_settled _ _ _).imp fun _ _ => CheckPair.completes_of_settled)

theorem pairOf_txnId (h : s.pairOf txn = some (i, p)) : p.txnId = txn := by
  obtain ⟨hi, hp⟩ := pairOf_eq_some.mp h
  obtain ⟨hlt, hpi, -⟩ := List.findIdx?_eq_some_iff_getElem.mp hi
  rw [List.getElem?_eq_getElem hlt] at hp
  rw [← Option.some.inj hp]
  simpa using hpi

/-- Once the nominee is decided, answers to other checks are only recorded, and ticks send
nothing for the nominee. -/
theorem arrive_decided {a : Arrival} (h : Decided txn s) (ha : a.txn ≠ some txn) :
    Decided txn (s.arrive env a) ∧ Logs (·.useCandidateTxn = none) s (s.arrive env a) := by
  cases a with
  | answer m =>
    have hm : m.txnId ≠ txn := fun h => ha (congrArg some h)
    change Decided txn (s.handleCheckResponse env m) ∧
      Logs (·.useCandidateTxn = none) s (s.handleCheckResponse env m)
    unfold handleCheckResponse
    split_ifs
    · exact ⟨h, .refl s⟩
    · split
      · exact ⟨h, .refl s⟩
      · rename_i i p hi
        have hcore := recordSuccess_core env m i p s
        have hd : Decided txn (s.recordSuccess env m i p) :=
          h.frame (congrArg Core.controlling hcore) (congrArg Core.cfg hcore)
            (congrArg Core.nomineeSelected hcore) (recordSuccess_sameNominee env m i p s)
        have hplain : p.nomineeCheckSent = false := by
          by_contra hf
          have hp := mem_of_getElem? (pairOf_eq_some.mp hi).2
          exact hm ((pairOf_txnId hi).symm.trans (h.nominee p hp (by simpa using hf)).2)
        have hstay : (s.recordSuccess env m i p).onPairSucceeded env i p =
            s.recordSuccess env m i p := by
          simp [onPairSucceeded, hd.controlling, hd.regular, hd.selected, hplain]
        rw [hstay]
        exact ⟨hd, recordSuccess_plain env m i p s⟩
  | tick =>
    change Decided txn (s.runNextCheck env) ∧
      Logs (·.useCandidateTxn = none) s (s.runNextCheck env)
    have hd : Decided txn (s.checkPasses env).2 := h.scheduled (checkPasses_scheduled env s)
      ((checkPasses_ticks env s).settled.imp fun _ _ => CheckPair.completes_of_settled)
    have hl := (checkPasses_ticks env s).plain h.pendingPlain
    unfold runNextCheck
    split_ifs
    · exact ⟨h, .refl s⟩
    · dsimp only
      generalize (s.checkPasses env).2 = t at hd hl
      split_ifs
      · have hq := armCheckTimer_quiet t
        refine ⟨hd.scheduled (.of_quiet hq) (hq.checkList ▸ forall₂_refl .refl _), hl.trans ?_⟩
        exact (Logs.of_keepsCore hq.delivers.toKeepsCore).mono fun _ => useCandidateTxn_of_routine
      · unfold checksExhausted
        rw [hd.controlling]
        split_ifs with _ hw
        · exact ⟨hd, hl⟩
        · cases hw
        · refine ⟨hd.frame rfl rfl rfl (forall₂_refl (fun p => ⟨.refl p, .refl p⟩) _), ?_⟩
          exact hl.trans ⟨[.onFailed, .setState .failed, t.failure _], rfl,
            by simp [useCandidateTxn, failure]⟩

theorem arrivals_plain (env : Env) (as : List Arrival) (h : Decided txn s)
    (ha : ∀ a ∈ as, a.txn ≠ some txn) :
    Logs (·.useCandidateTxn = none) s (as.foldl (arrive env) s) := by
  induction as generalizing s with
  | nil => exact .refl s
  | cons a as ih =>
    obtain ⟨hd, hl⟩ := arrive_decided h (ha a mem_cons_self)
    exact hl.trans (ih hd fun b hb => ha b (mem_cons_of_mem _ hb))

def useCandidatesSince (s t : Session) : List TransactionId :=
  (t.log.take (t.log.length - s.log.length)).filterMap useCandidateTxn

def answeredPairs (s : Session) (as : List Arrival) : List CheckPair :=
  s.checkList.filter fun p => p.txnId ∈ as.filterMap Arrival.txn

/-- USE-CANDIDATE is sent, once, on the answered pair of highest priority. -/
def nominatesBest (env : Env) (s : Session) (as : List Arrival) : Bool :=
  (s.answeredPairs as).any fun p =>
    decide (s.useCandidatesSince (as.foldl (arrive env) s) = [p.txnId]) &&
      (s.answeredPairs as).all fun q => decide (q.priority ≤ p.priority)

/-- A regular controller before the first answer to one of its checks; `m` is that answer, and
`rest` is what follows. -/
structure Race (s : Session) (m : StunMessage) (rest : List Arrival) : Prop where
  checking : s.state = .checking
  controlling : s.controlling = true
  regular : s.cfg.aggressiveNomination = false
  unselected : s.nomineeSelected = false
  unanswered : ∀ p ∈ s.checkList, p.valid = false ∧ p.nomineeCheckSent = false
  distinct : (s.checkList.map (·.txnId)).Nodup
  listed : ∃ p ∈ s.checkList, p.txnId = m.txnId
  once : ∀ a ∈ rest, a.txn ≠ some m.txnId

/-- The first answer belongs to the answered pair of highest priority, and the follow-up check of
that pair reaches a carrier. -/
def firstIsBest (env : Env) (s : Session) (m : StunMessage) (rest : List Arrival) : Bool :=
  (s.pairOf m.txnId).any fun (i, p) =>
    ((s.answeredPairs (.answer m :: rest)).all fun q => decide (q.priority ≤ p.priority)) &&
      (s.recordSuccess env m i p).pickLeaves env

/-- The pair of the first answer is the only valid one, and it is picked. -/
theorem Race.firstAnswer (env : Env) (h : Race s m rest) :
    ∃ i p, s.pairOf m.txnId = some (i, p) ∧
      s.handleCheckResponse env m = (s.recordSuccess env m i p).pickNominee env ∧
      CheckPair.bestValid (s.recordSuccess env m i p).checkList = some i ∧
      (s.recordSuccess env m i p).checkList[i]? =
        some { p with valid := true, state := .succeeded } := by
  obtain ⟨p₀, hp₀, hid⟩ := h.listed
  obtain ⟨i, hi⟩ : ∃ i, s.checkList.findIdx? (·.txnId = m.txnId) = some i := by
    cases hf : s.checkList.findIdx? (·.txnId = m.txnId) with
    | some i => exact ⟨i, rfl⟩
    | none => simpa [hid] using List.findIdx?_eq_none_iff.mp hf p₀ hp₀
  obtain ⟨hlt, -⟩ := List.findIdx?_eq_some_iff_getElem.mp hi
  have hp := List.getElem?_eq_getElem hlt
  generalize s.checkList[i] = p at hp
  have hpair : s.pairOf m.txnId = some (i, p) := pairOf_eq_some.mpr ⟨hi, hp⟩
  have hfresh := h.unanswered p (mem_of_getElem? hp)
  have hlist : (s.recordSuccess env m i p).checkList = CheckPair.unfreezeSiblings p.loc.foundation
      p.rem.foundation (s.checkList.modify i fun p =>
        { p with valid := true, state := .succeeded }) := by
    rw [← show (s.noteResponse env m p).checkList = s.checkList from
      congrArg Core.checkList (noteResponse_core env m p s)]
    rfl
  have hown : (s.recordSuccess env m i p).checkList[i]? =
      some { p with valid := true, state := .succeeded } := by
    have hmodify : (s.checkList.modify i fun p => { p with valid := true, state := .succeeded })[i]?
        = some { p with valid := true, state := .succeeded } := by simp [hp]
    obtain ⟨q, hq, hset⟩ := exists_right_of_getElem? (unfreezeSiblings_settled p.loc.foundation
      p.rem.foundation _) hmodify
    rw [hlist, hq, hset rfl]
  refine ⟨i, p, hpair, ?_, CheckPair.bestValid_of_unique hown rfl fun j q hq hv => ?_, hown⟩
  · have hcore := recordSuccess_core env m i p s
    have hc := (congrArg Core.controlling hcore).trans h.controlling
    have hr := (congrArg (·.cfg.aggressiveNomination) hcore).trans h.regular
    have hn := (congrArg Core.nomineeSelected hcore).trans h.unselected
    rw [handleCheckResponse, if_neg (not_not.mpr h.checking), hpair]
    change onPairSucceeded env i p (s.recordSuccess env m i p) = _
    change (s.recordSuccess env m i p).controlling = true at hc
    change (s.recordSuccess env m i p).cfg.aggressiveNomination = false at hr
    change (s.recordSuccess env m i p).nomineeSelected = false at hn
    simp [onPairSucceeded, hc, hr, hn, hfresh.1, hfresh.2]
  · by_contra hij
    rw [hlist] at hq
    obtain ⟨r, hr, hpaint⟩ := exists_left_of_getElem?
      (CheckPair.unfreezeSiblings_repaints p.loc.foundation p.rem.foundation _) hq
    have hr : s.checkList[j]? = some r := by simpa [List.getElem?_modify, Ne.symm hij] using hr
    rw [(CheckPair.Evolves.of_repaints hpaint).valid, (h.unanswered r (mem_of_getElem? hr)).1] at hv
    cases hv

private theorem useCandidatesSince_of_log (new : List Effect) (h : t.log = new ++ s.log) :
    s.useCandidatesSince t = new.filterMap useCandidateTxn := by
  simp [useCandidatesSince, h]

/-- The only follow-up of the whole race is that of the first answer. -/
theorem Race.useCandidates (env : Env) (h : Race s m rest) :
    ∃ i p, s.pairOf m.txnId = some (i, p) ∧
      s.useCandidatesSince ((Arrival.answer m :: rest).foldl (arrive env) s) =
        if (s.recordSuccess env m i p).pickLeaves env then [m.txnId] else [] := by
  obtain ⟨i, p, hpair, hstep, hbest, hown⟩ := h.firstAnswer env
  refine ⟨i, p, hpair, ?_⟩
  have hcore := recordSuccess_core env m i p s
  have hc : (s.recordSuccess env m i p).controlling = true :=
    (congrArg Core.controlling hcore).trans h.controlling
  have hd : Decided p.txnId ((s.recordSuccess env m i p).pickNominee env) := by
    refine pickNominee_decided (p := { p with valid := true, state := .succeeded }) hc
      ((congrArg (·.cfg.aggressiveNomination) hcore).trans h.regular)
        (fun q hq => ?_) hbest hown rfl
    obtain ⟨q', hq', ⟨-, hflag⟩, -⟩ :=
      exists_left_of_mem (recordSuccess_sameNominee env m i p s) hq
    rw [hflag]
    exact (h.unanswered q' hq').2
  rw [pairOf_txnId hpair] at hd
  obtain ⟨rec, hrec, hplain⟩ := recordSuccess_plain env m i p s
  obtain ⟨more, hmore, hquiet⟩ := arrivals_plain env rest hd h.once
  have hnone {l : List Effect} (hl : ∀ e ∈ l, e.useCandidateTxn = none) :
      l.filterMap useCandidateTxn = [] := filterMap_eq_nil_iff.mpr hl
  rw [foldl_cons, show s.arrive env (.answer m) = s.handleCheckResponse env m from rfl, hstep]
  split_ifs with hl
  · obtain ⟨j, q, e, hj, hq, he, hlog⟩ := pickNominee_sends hl
    obtain rfl := Option.some.inj (hbest.symm.trans hj)
    obtain rfl := Option.some.inj (hown.symm.trans hq)
    have huc : e.useCandidateTxn = some m.txnId := by
      rw [useCandidateTxn_of_sends he, checkMessage_useCandidateTxn, hc]
      simp [pairOf_txnId hpair]
    rw [useCandidatesSince_of_log (more ++ e :: rec) (by simp [hmore, hlog, hrec]),
      filterMap_append, hnone hquiet, filterMap_cons, huc, hnone hplain]
    rfl
  · rw [useCandidatesSince_of_log (more ++ rec)
      (by rw [hmore, pickNominee_silent (by simpa using hl), hrec, append_assoc]),
      filterMap_append, hnone hquiet, hnone hplain]
    rfl

/-- USE-CANDIDATE goes to the best answered pair exactly if the first answer is the answer of
that pair. -/
theorem nominatesBest_iff (env : Env) {s : Session} {m : StunMessage} {rest : List Arrival}
    (h : Race s m rest) :
    s.nominatesBest env (.answer m :: rest) = true ↔ s.firstIsBest env m rest = true := by
  obtain ⟨i, p, hpair, hsent⟩ := h.useCandidates env
  have hp := mem_of_getElem? (pairOf_eq_some.mp hpair).2
  have hid := pairOf_txnId hpair
  have hans : p ∈ s.answeredPairs (.answer m :: rest) := by
    simp [answeredPairs, hp, hid, Arrival.txn]
  simp only [nominatesBest, firstIsBest, hpair, hsent, Option.any_some, any_eq_true,
    Bool.and_eq_true, decide_eq_true_eq]
  constructor
  · rintro ⟨q, hq, hone, hmax⟩
    split_ifs at hone with hl
    have hqp : q = p := inj_on_of_nodup_map h.distinct (mem_filter.mp hq).1 hp
      ((List.cons.inj hone).1.symm.trans hid.symm)
    exact ⟨hqp ▸ hmax, hl⟩
  · rintro ⟨hmax, hl⟩
    exact ⟨p, hans, by rw [if_pos hl, hid], hmax⟩

/-- A regular controller that checks a host and a server-reflexive candidate of its peer. -/
def twoPairs : Session :=
  (create .lan {} {} true 7).run zeroHmac .lan
    [.gather, .addRemoteCandidates [1] [2] [peerHost, { peerHost with
      port := 6001
      type := .srflx
      priority := computePriority .srflx 65535 1 }] false]

def hostAnswer : StunMessage := (peerResponse [2] (Env.lan.txnId 3)).message Env.lan.net

def srflxAnswer : StunMessage := (peerResponse [2] (Env.lan.txnId 4)).message Env.lan.net

theorem higher_priority_answered_first :
    Race twoPairs hostAnswer [.answer srflxAnswer] ∧
      twoPairs.nominatesBest .lan [.answer hostAnswer, .answer srflxAnswer] = true := by
  have h : Race twoPairs hostAnswer [.answer srflxAnswer] := by
    constructor <;> decide +kernel
  exact ⟨h, (nominatesBest_iff .lan h).mpr (by decide +kernel)⟩

/-- The answer that comes first decides, whatever its priority. -/
theorem lower_priority_answered_first :
    Race twoPairs srflxAnswer [.answer hostAnswer] ∧
      twoPairs.nominatesBest .lan [.answer srflxAnswer, .answer hostAnswer] = false := by
  constructor
  · constructor <;> decide +kernel
  · decide +kernel

end Session

end LinkIce
