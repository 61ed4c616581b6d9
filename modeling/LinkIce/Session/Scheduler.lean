import LinkIce.Lib.Pointwise
import LinkIce.Session.Actions
import Mathlib.Logic.Relation

/-! The check scheduler: what its passes do to the list, and its paths. -/
namespace LinkIce
open Stun

namespace CheckPair

variable {p q r : CheckPair} {ps : List CheckPair}

/-- How the scheduler may change a pair: retries, send time and state, where a pair does
not become Frozen or Succeeded. -/
structure Evolves (p q : CheckPair) : Prop where
  loc : q.loc = p.loc
  rem : q.rem = p.rem
  txnId : q.txnId = p.txnId
  transportType : q.transportType = p.transportType
  valid : q.valid = p.valid
  nomineeCheckSent : q.nomineeCheckSent = p.nomineeCheckSent
  pendingNomination : q.pendingNomination = p.pendingNomination
  state : q.state = p.state ∨ (q.state ≠ .frozen ∧ q.state ≠ .succeeded)

namespace Evolves

theorem refl (p : CheckPair) : Evolves p p := ⟨rfl, rfl, rfl, rfl, rfl, rfl, rfl, .inl rfl⟩

theorem trans (hpq : Evolves p q) (hqr : Evolves q r) : Evolves p r where
  loc := hqr.loc.trans hpq.loc
  rem := hqr.rem.trans hpq.rem
  txnId := hqr.txnId.trans hpq.txnId
  transportType := hqr.transportType.trans hpq.transportType
  valid := hqr.valid.trans hpq.valid
  nomineeCheckSent := hqr.nomineeCheckSent.trans hpq.nomineeCheckSent
  pendingNomination := hqr.pendingNomination.trans hpq.pendingNomination
  state := by
    rcases hqr.state with h | h
    · rw [h]
      exact hpq.state
    · exact .inr h

theorem of_repaints (h : Repaints p q) : Evolves p q := by
  obtain ⟨hq, hs⟩ := h
  rw [hq] at hs ⊢
  exact ⟨rfl, rfl, rfl, rfl, rfl, rfl, rfl, hs⟩

theorem awaitingNomination (h : Evolves p q) (hq : q.awaitingNomination = true) :
    p.awaitingNomination = true := by
  simp only [CheckPair.awaitingNomination, Bool.and_eq_true, decide_eq_true_eq] at hq ⊢
  rw [h.nomineeCheckSent] at hq
  refine ⟨hq.1, ?_⟩
  rcases h.state with hs | hs
  · rw [← hs, hq.2]
  · exact absurd hq.2 hs.2

end Evolves

theorem Repaints.refl (p : CheckPair) : Repaints p p := ⟨rfl, .inl rfl⟩

theorem Repaints.paint (p : CheckPair) {st : PairState} (h : st ≠ .frozen ∧ st ≠ .succeeded) :
    Repaints p { p with state := st } := ⟨rfl, .inr h⟩

theorem Repaints.trans (hpq : Repaints p q) (hqr : Repaints q r) : Repaints p r := by
  obtain ⟨hq, hs⟩ := hpq
  obtain ⟨hr, ht⟩ := hqr
  refine ⟨by rw [hr, hq], ?_⟩
  rcases ht with h | h
  · rw [h]
    exact hs
  · exact .inr h

theorem unfreezeSiblings_repaints (lfnd rfnd : Bytes) (ps : List CheckPair) :
    List.Forall₂ Repaints ps (unfreezeSiblings lfnd rfnd ps) := by
  unfold unfreezeSiblings
  split_ifs
  · exact forall₂_refl Repaints.refl ps
  · rw [List.forall₂_map_right_iff]
    refine List.forall₂_same.mpr fun p _ => ?_
    unfold unfreeze
    split_ifs
    exacts [.paint p (by decide), .refl p]

theorem promoteFrozen_repaints (seen : List Bytes) (ps : List CheckPair) :
    List.Forall₂ Repaints ps (promoteFrozen seen ps) := by
  induction ps generalizing seen with
  | nil => exact .nil
  | cons p ps ih =>
    simp only [promoteFrozen]
    split_ifs
    exacts [.cons (.paint p (by decide)) (ih _), .cons (.refl p) (ih _)]

theorem unfreezeStuck_repaints (ps : List CheckPair) :
    List.Forall₂ Repaints ps (unfreezeStuck ps) := by
  unfold unfreezeStuck
  split_ifs
  exacts [forall₂_refl Repaints.refl ps, promoteFrozen_repaints [] ps]

def Calms (p q : CheckPair) : Prop := q.state = .inProgress → p.state = .inProgress

theorem Calms.refl (p : CheckPair) : Calms p p := id

theorem Calms.trans (hpq : Calms p q) (hqr : Calms q r) : Calms p r :=
  fun h => hpq (hqr h)

theorem Calms.countP_le {qs : List CheckPair} (h : List.Forall₂ Calms ps qs) :
    qs.countP (·.state = .inProgress) ≤ ps.countP (·.state = .inProgress) :=
  countP_le_of_forall₂ (fun p q hpq hq => by simpa using hpq (by simpa using hq)) h

theorem unfreezeSiblings_calms (lfnd rfnd : Bytes) (ps : List CheckPair) :
    List.Forall₂ Calms ps (unfreezeSiblings lfnd rfnd ps) := by
  unfold unfreezeSiblings
  split_ifs
  · exact forall₂_refl Calms.refl ps
  · rw [List.forall₂_map_right_iff]
    refine List.forall₂_same.mpr fun p _ => ?_
    unfold unfreeze
    split_ifs
    exacts [nofun, .refl p]

theorem unfreezeStuck_calms : List.Forall₂ Calms ps (unfreezeStuck ps) := by
  have hpromote (seen : List Bytes) (ps : List CheckPair) :
      List.Forall₂ Calms ps (promoteFrozen seen ps) := by
    induction ps generalizing seen with
    | nil => exact .nil
    | cons p ps ih =>
      simp only [promoteFrozen]
      split_ifs
      exacts [.cons nofun (ih _), .cons (.refl p) (ih _)]
  unfold unfreezeStuck
  split_ifs
  exacts [forall₂_refl Calms.refl ps, hpromote [] ps]

end CheckPair

structure Scheduled (s t : Session) : Prop where
  core : t.core = { s.core with checkList := t.checkList }
  checkList : List.Forall₂ CheckPair.Evolves s.checkList t.checkList

namespace Scheduled

variable {s t u : Session}

theorem refl (s : Session) : Scheduled s s :=
  ⟨rfl, forall₂_refl CheckPair.Evolves.refl _⟩

theorem trans (hst : Scheduled s t) (htu : Scheduled t u) : Scheduled s u := by
  refine ⟨?_, forall₂_trans (fun _ _ _ => .trans) hst.checkList htu.checkList⟩
  rw [htu.core, hst.core]

theorem congr_core (h : Scheduled s t) (hc : u.core = t.core) : Scheduled s u := by
  have hl : u.checkList = t.checkList := congrArg Core.checkList hc
  exact ⟨by rw [hc, hl]; exact h.core, by rw [hl]; exact h.checkList⟩

theorem of_quiet (h : Quiet s t) : Scheduled s t := (refl s).congr_core h.core

theorem state (h : Scheduled s t) : t.state = s.state := congrArg Core.state h.core

theorem controlling (h : Scheduled s t) : t.controlling = s.controlling :=
  congrArg Core.controlling h.core

theorem cfg (h : Scheduled s t) : t.cfg = s.cfg := congrArg Core.cfg h.core

theorem awaitingNomination (h : Scheduled s t) {q : CheckPair} (hq : q ∈ t.checkList)
    (ha : q.awaitingNomination = true) : ∃ p ∈ s.checkList, p.awaitingNomination = true := by
  obtain ⟨p, hp, hpq⟩ := exists_left_of_mem h.checkList hq
  exact ⟨p, hp, hpq.awaitingNomination ha⟩

end Scheduled

namespace Session

variable (env : Env) (s : Session) {i : ℕ} {ps : List CheckPair} {p : CheckPair} {is : List ℕ}

theorem scheduled_repaint (h : List.Forall₂ CheckPair.Repaints s.checkList ps) :
    Scheduled s { s with checkList := ps } :=
  ⟨rfl, h.imp fun _ _ => .of_repaints⟩

/-- Failing a pair and releasing its siblings changes pair states only. -/
theorem failPair_repaints (i : ℕ) :
    ∃ ps, s.failPair i = { s with checkList := ps } ∧
      List.Forall₂ CheckPair.Repaints s.checkList ps := by
  unfold failPair
  split
  · exact ⟨s.checkList, rfl, forall₂_refl CheckPair.Repaints.refl _⟩
  · refine ⟨_, rfl, ?_⟩
    exact forall₂_trans (fun _ _ _ => .trans)
      (forall₂_modify CheckPair.Repaints.refl (fun p => .paint p (by decide)) _ i)
      (CheckPair.unfreezeSiblings_repaints _ _ _)

theorem failPair_calms (i : ℕ) :
    List.Forall₂ CheckPair.Calms s.checkList (s.failPair i).checkList := by
  unfold failPair
  split
  · exact forall₂_refl CheckPair.Calms.refl _
  · refine forall₂_trans (fun _ _ _ => .trans) (forall₂_modify CheckPair.Calms.refl ?_ _ i)
      (CheckPair.unfreezeSiblings_calms _ _ _)
    exact fun p h => nomatch h

theorem modifyPair_state_repaints {st : PairState} (h : st ≠ .frozen ∧ st ≠ .succeeded) :
    List.Forall₂ CheckPair.Repaints s.checkList
      (s.checkList.modify i fun p => { p with state := st }) :=
  forall₂_modify CheckPair.Repaints.refl (fun p => .paint p h) _ i

theorem transmit_keeps {b : StunBuilder} :
    ∃ rs, Keeps (fun _ => true) { s with relayChecks := rs } (s.transmit env p b) := by
  have any {t : Session} (h : Quiet s t) : Keeps (fun _ => true) s t := h.mono fun _ _ => rfl
  have htcp := any (ensureRemoteTcpCid_quiet env s (p.endpoint env.net))
  have hudp := any (ensureRemoteCid_quiet env s (p.endpoint env.net))
  have hrelay := any (relayCidForEndpoint_quiet s (p.endpoint env.net))
  unfold transmit
  dsimp only
  split_ifs
  · exact ⟨_, .refl s⟩
  · exact ⟨_, htcp⟩
  · exact ⟨_, htcp.trans (carrierSend_keeps _ _ rfl rfl)⟩
  · have hnote (u : Session) (h : Keeps (fun _ => true) s u) :
        Keeps (fun _ => true)
          { s with relayChecks := (u.noteRelayCheck (p.endpoint env.net)).relayChecks }
          (u.noteRelayCheck (p.endpoint env.net)) := { h with relayChecks := rfl }
    exact ⟨_, (hnote _ hrelay).trans (.emit _ _ rfl)⟩
  · exact ⟨_, hudp⟩
  · exact ⟨_, hudp.trans (carrierSend_keeps _ _ rfl rfl)⟩

theorem transmit_core (p : CheckPair) (b : StunBuilder) : (s.transmit env p b).core = s.core := by
  obtain ⟨rs, h⟩ := transmit_keeps env s
  exact h.core

theorem sendCheck_keeps : ∃ ps rs, Keeps (fun _ => true)
    { s with checkList := ps, relayChecks := rs } (s.sendCheck env i) := by
  unfold sendCheck
  split
  · exact ⟨s.checkList, s.relayChecks, .refl s⟩
  · rename_i p _
    split_ifs
    · obtain ⟨ps, hs, -⟩ := failPair_repaints s i
      exact ⟨ps, s.relayChecks, hs ▸ .refl _⟩
    · obtain ⟨rs, h⟩ := transmit_keeps env
        ((s.modifyPair i fun p =>
          { p with retries := p.retries + 1, txnSendUs := env.clock s.draws }).drawn)
      exact ⟨_, rs, h.after (.silent rfl (Nat.le_succ _))⟩

theorem pickNominee_keeps : ∃ sel ps rs, Keeps (fun _ => true)
    { s with nomineeSelected := sel, checkList := ps, relayChecks := rs } (s.pickNominee env) := by
  unfold pickNominee
  split
  · exact ⟨s.nomineeSelected, s.checkList, s.relayChecks, .refl s⟩
  · rename_i i _
    obtain ⟨ps, rs, h⟩ := sendCheck_keeps env
      (({ s with nomineeSelected := true } : Session).modifyPair i
        fun p => { p with nomineeCheckSent := true })
    exact ⟨true, ps, rs, h⟩

theorem sendCheck_scheduled (i : ℕ) : Scheduled s (s.sendCheck env i) := by
  unfold sendCheck
  split
  · exact .refl s
  · split_ifs
    · obtain ⟨ps, hs, hps⟩ := failPair_repaints s i
      rw [hs]
      exact scheduled_repaint s hps
    · refine Scheduled.congr_core ?_ (transmit_core env _ _ _)
      refine ⟨rfl, forall₂_modify CheckPair.Evolves.refl ?_ _ i⟩
      exact fun p => ⟨rfl, rfl, rfl, rfl, rfl, rfl, rfl, .inl rfl⟩

/-- Sending a check does not start one. -/
theorem sendCheck_calms :
    List.Forall₂ CheckPair.Calms s.checkList (s.sendCheck env i).checkList := by
  unfold sendCheck
  split
  · exact forall₂_refl CheckPair.Calms.refl _
  · split_ifs
    · exact failPair_calms s i
    · rw [show ∀ (p b t), (transmit env p b t).checkList = t.checkList from
        fun p b t => congrArg Core.checkList (transmit_core env t p b)]
      refine forall₂_modify CheckPair.Calms.refl ?_ _ i
      exact fun p h => h

theorem startCheck_inProgressCount (i : ℕ) :
    (s.startCheck env i).inProgressCount ≤ s.inProgressCount + 1 :=
  (CheckPair.Calms.countP_le (sendCheck_calms env _)).trans (countP_modify_le _ _ _ i)

private theorem promoteWaiting_eq_self (h : ∀ p ∈ s.checkList, p.isPending = false) :
    promoteWaiting env is s = s := by
  induction is with
  | nil => rfl
  | cons i is ih =>
    simp only [promoteWaiting]
    split_ifs
    · rfl
    · split
      · rfl
      · rename_i p hp
        have hw : p.state ≠ .waiting := by
          have := h p (List.mem_of_getElem? hp)
          simp only [CheckPair.isPending, Bool.or_eq_false_iff, decide_eq_false_iff_not] at this
          exact this.1.2
        rw [if_neg (fun hc => hw hc.1), ih]

theorem checkPasses_exhausted (h : (s.checkPasses env).1 = false) :
    ∀ p ∈ (s.checkPasses env).2.checkList, p.isPending = false := by
  unfold checkPasses at h ⊢
  dsimp only at h ⊢
  have hp := List.any_eq_false.mp h
  rw [promoteWaiting_eq_self env _ (by simpa using hp)]
  simpa using hp

/-! ### The passes leave completed pairs alone -/

def Settled (p q : CheckPair) : Prop := p.isPending = false → q = p

theorem settled_refl (p : CheckPair) : Settled p p := fun _ => rfl

theorem unfreezeSiblings_settled (lfnd rfnd : Bytes) (ps : List CheckPair) :
    List.Forall₂ Settled ps (CheckPair.unfreezeSiblings lfnd rfnd ps) := by
  unfold CheckPair.unfreezeSiblings
  split_ifs
  · exact forall₂_refl settled_refl ps
  · rw [List.forall₂_map_right_iff]
    refine List.forall₂_same.mpr fun p _ hp => ?_
    have hf : p.state ≠ .frozen := fun h => by simp [CheckPair.isPending, h] at hp
    unfold CheckPair.unfreeze
    rw [if_neg (by simp [hf])]

theorem unfreezeStuck_settled : List.Forall₂ Settled ps (CheckPair.unfreezeStuck ps) := by
  have hpromote (seen : List Bytes) (ps : List CheckPair) :
      List.Forall₂ Settled ps (CheckPair.promoteFrozen seen ps) := by
    induction ps generalizing seen with
    | nil => exact .nil
    | cons p ps ih =>
      simp only [CheckPair.promoteFrozen]
      split_ifs with hf
      · exact .cons (fun hp => by simp [CheckPair.isPending, hf.1] at hp) (ih _)
      · exact .cons (settled_refl p) (ih _)
  unfold CheckPair.unfreezeStuck
  split_ifs
  exacts [forall₂_refl settled_refl ps, hpromote [] ps]

/-- Writing a pair that is pending. -/
theorem modify_settled (f : CheckPair → CheckPair) (h : ∀ p, ps[i]? = some p → p.isPending = true) :
    List.Forall₂ Settled ps (ps.modify i f) :=
  forall₂_modify_at settled_refl fun p hp hn => by simp [h p hp] at hn

theorem settled_trans {ps qs rs : List CheckPair} (h₁ : List.Forall₂ Settled ps qs)
    (h₂ : List.Forall₂ Settled qs rs) : List.Forall₂ Settled ps rs :=
  forall₂_trans (fun _ _ _ hpq hqr hp => by rw [hqr (by rw [hpq hp, hp]), hpq hp]) h₁ h₂

theorem failPair_settled (h : ∀ p, s.checkList[i]? = some p → p.isPending = true) :
    List.Forall₂ Settled s.checkList (s.failPair i).checkList := by
  unfold failPair
  split
  · exact forall₂_refl settled_refl _
  · exact settled_trans (modify_settled _ h) (unfreezeSiblings_settled _ _ _)

theorem sendCheck_settled (h : ∀ p, s.checkList[i]? = some p → p.isPending = true) :
    List.Forall₂ Settled s.checkList (s.sendCheck env i).checkList := by
  unfold sendCheck
  split
  · exact forall₂_refl settled_refl _
  · split_ifs
    · exact failPair_settled s h
    · rw [show ∀ (p b t), (transmit env p b t).checkList = t.checkList from
        fun p b t => congrArg Core.checkList (transmit_core env t p b)]
      exact modify_settled _ h

/-! ### The moves of the scheduler -/

/-- One move of the scheduler: it repaints pending pairs, reads the clock, or sends the check
of a pending pair. -/
inductive Tick : Session → Session → Prop
  | repaint (s : Session) (ps : List CheckPair)
      (h : List.Forall₂ CheckPair.Repaints s.checkList ps)
      (hs : List.Forall₂ Settled s.checkList ps)
      (hc : ps.countP (·.state = .inProgress) ≤ max checkConcurrencyCap s.inProgressCount) :
      Tick s { s with checkList := ps }
  | read (s : Session) : Tick s s.drawn
  | check (s : Session) (i : ℕ) (h : ∀ p, s.checkList[i]? = some p → p.isPending = true) :
      Tick s (s.sendCheck env i)

/-- The work of one call into the scheduler. -/
abbrev Ticks : Session → Session → Prop := Relation.ReflTransGen (Tick env)

private theorem pending_at {i : ℕ} {s : Session} (hp : s.checkList[i]? = some p)
    (h : p.isPending = true) : ∀ q, s.checkList[i]? = some q → q.isPending = true := by
  intro q hq
  rw [hp] at hq
  obtain rfl := Option.some.inj hq
  exact h

theorem failPair_ticks (h : ∀ p, s.checkList[i]? = some p → p.isPending = true) :
    Ticks env s (s.failPair i) := by
  have hset := failPair_settled s h
  have hcalm := CheckPair.Calms.countP_le (failPair_calms s i)
  obtain ⟨ps, hs, hps⟩ := failPair_repaints s i
  rw [hs] at hset hcalm ⊢
  exact .single (.repaint s ps hps hset (hcalm.trans (le_max_right _ _)))

theorem startCheck_ticks (h : ∀ p, s.checkList[i]? = some p → p.isPending = true)
    (hcap : s.inProgressCount < checkConcurrencyCap) : Ticks env s (s.startCheck env i) := by
  have hpaint : Tick env s (s.modifyPair i fun p => { p with state := .inProgress }) :=
    .repaint s _ (modifyPair_state_repaints s (by decide)) (modify_settled _ h)
      ((countP_modify_le _ _ _ i).trans (hcap.trans_le (le_max_left _ _)))
  refine (Relation.ReflTransGen.single hpaint).tail (.check _ i fun q hq => ?_)
  simp only [modifyPair, List.getElem?_modify, if_true] at hq
  obtain ⟨p, -, rfl⟩ := Option.map_eq_some_iff.mp hq
  rfl

theorem retransmitPair_ticks {now i : ℕ} : Ticks env s (s.retransmitPair env now i) := by
  unfold retransmitPair
  split
  · exact .refl
  · rename_i p hp
    split_ifs with hs
    · exact .refl
    · exact .refl
    · exact failPair_ticks env s (pending_at hp (by simp [CheckPair.isPending, not_not.mp hs]))
    · exact .refl
    · exact .single (.check s i (pending_at hp (by simp [CheckPair.isPending, not_not.mp hs])))

theorem retransmitAll_ticks (now : ℕ) (is : List ℕ) : Ticks env s (s.retransmitAll env now is) := by
  induction is generalizing s with
  | nil => exact .refl
  | cons i is ih => exact (retransmitPair_ticks env s).trans (ih _)

theorem promoteWaiting_ticks : Ticks env s (promoteWaiting env is s) := by
  induction is generalizing s with
  | nil => exact .refl
  | cons i is ih =>
    simp only [promoteWaiting]
    split_ifs with hcap
    · exact .refl
    · split
      · exact .refl
      · rename_i p hp
        refine Relation.ReflTransGen.trans ?_ (ih _)
        split_ifs with hw
        · exact startCheck_ticks env s (pending_at hp (by simp [CheckPair.isPending, hw.1]))
            (not_le.mp hcap)
        · exact .refl

theorem checkPasses_ticks : Ticks env s (s.checkPasses env).2 := by
  have hthaw : Tick env s s.unfreezeStuckPairs :=
    .repaint s _ (CheckPair.unfreezeStuck_repaints _) unfreezeStuck_settled
      ((CheckPair.Calms.countP_le (CheckPair.unfreezeStuck_calms)).trans (le_max_right _ _))
  exact (((Relation.ReflTransGen.single hthaw).tail (.read _)).trans
    (retransmitAll_ticks env _ _ _)).trans (promoteWaiting_ticks env _)

theorem preFire_ticks (is : List ℕ) (v4 v6 : Bool)
    (hcap : s.inProgressCount + 2 ≤ checkConcurrencyCap + v4.toNat + v6.toNat) :
    Ticks env s (preFire env is v4 v6 s) := by
  induction is generalizing s v4 v6 with
  | nil => exact .refl
  | cons i is ih =>
    simp only [preFire]
    split_ifs with hboth
    · exact .refl
    · split
      · exact .refl
      · rename_i p hp
        have hlt : s.inProgressCount < checkConcurrencyCap := by
          cases v4 <;> cases v6 <;> simp at hboth hcap <;> omega
        have hone := startCheck_inProgressCount env s i
        split_ifs with hw h4 h6
        · exact ih s v4 v6 hcap
        · refine (startCheck_ticks env s
            (pending_at hp (by simp [CheckPair.isPending, not_not.mp hw])) hlt).trans (ih _ _ _ ?_)
          have hv : v4 = false := by simpa using h4.2
          simp only [hv, Bool.toNat_false, Bool.toNat_true] at hcap ⊢
          omega
        · refine (startCheck_ticks env s
            (pending_at hp (by simp [CheckPair.isPending, not_not.mp hw])) hlt).trans (ih _ _ _ ?_)
          have hv : v6 = false := by simpa using h6.2
          simp only [hv, Bool.toNat_false, Bool.toNat_true] at hcap ⊢
          omega
        · exact ih s v4 v6 hcap

section ticks

variable {env s} {t : Session}

theorem Tick.scheduled (h : Tick env s t) : Scheduled s t := by
  cases h with
  | repaint ps h => exact scheduled_repaint s h
  | read => exact .of_quiet (.drawn s)
  | check i => exact sendCheck_scheduled env s i

theorem Tick.settled (h : Tick env s t) : List.Forall₂ Settled s.checkList t.checkList := by
  cases h with
  | repaint _ _ hs => exact hs
  | read => exact forall₂_refl settled_refl _
  | check i h => exact sendCheck_settled env s h

theorem Ticks.scheduled (h : Ticks env s t) : Scheduled s t := by
  induction h with
  | refl => exact .refl s
  | tail _ ht ih => exact ih.trans ht.scheduled

theorem Ticks.settled (h : Ticks env s t) : List.Forall₂ Settled s.checkList t.checkList := by
  induction h with
  | refl => exact forall₂_refl settled_refl _
  | tail _ ht ih => exact settled_trans ih ht.settled

end ticks

theorem checkPasses_scheduled : Scheduled s (s.checkPasses env).2 :=
  (checkPasses_ticks env s).scheduled

end Session

end LinkIce
