import LinkIce.Session.Scheduler

/-! What the passes of `run_next_check` do to each pair, and when they find nothing pending. -/
namespace LinkIce
open Stun List

namespace CheckPair

def Thaws (p q : CheckPair) : Prop := q = p ∨ (p.state = .frozen ∧ q = { p with state := .waiting })

theorem Thaws.refl (p : CheckPair) : Thaws p p := .inl rfl

theorem unfreezeSiblings_thaws {lfnd rfnd : Bytes} {ps : List CheckPair} :
    List.Forall₂ Thaws ps (unfreezeSiblings lfnd rfnd ps) := by
  unfold unfreezeSiblings
  split_ifs
  · exact forall₂_refl Thaws.refl ps
  · rw [List.forall₂_map_right_iff]
    refine List.forall₂_same.mpr fun p _ => ?_
    unfold unfreeze
    split_ifs with h
    exacts [.inr ⟨h.1, rfl⟩, .inl rfl]

theorem unfreezeStuck_thaws (ps : List CheckPair) : List.Forall₂ Thaws ps (unfreezeStuck ps) := by
  have hpromote (seen : List Bytes) (ps : List CheckPair) :
      List.Forall₂ Thaws ps (promoteFrozen seen ps) := by
    induction ps generalizing seen with
    | nil => exact .nil
    | cons p ps ih =>
      simp only [promoteFrozen]
      split_ifs with hf
      exacts [.cons (.inr ⟨hf.1, rfl⟩) (ih _), .cons (.inl rfl) (ih _)]
  unfold unfreezeStuck
  split_ifs
  exacts [forall₂_refl Thaws.refl ps, hpromote [] ps]

/-- The pair has made progress towards its check, or none. -/
def Advances (p q : CheckPair) : Prop :=
  q.state = p.state ∨ (p.state = .frozen ∧ (q.state = .waiting ∨ q.state = .inProgress)) ∨
    (p.state = .waiting ∧ q.state = .inProgress)

namespace Advances

variable {p q r : CheckPair}

theorem refl (p : CheckPair) : Advances p p := .inl rfl

theorem of_thaws (h : Thaws p q) : Advances p q := by
  rcases h with rfl | ⟨hf, rfl⟩
  exacts [.inl rfl, .inr (.inl ⟨hf, .inl rfl⟩)]

theorem trans (hpq : Advances p q) (hqr : Advances q r) : Advances p r := by
  unfold Advances at *
  grind

theorem isPending (h : Advances p q) : q.isPending = p.isPending := by
  rcases h with h | ⟨h, h' | h'⟩ | ⟨h, h'⟩ <;> simp [CheckPair.isPending, *]

end Advances

end CheckPair

namespace Session

open CheckPair

variable {env : Env} {s t : Session} {i j now : ℕ} {p : CheckPair} {ps : List CheckPair}

/-- The check of the pair has no retries left and its last wait is over. -/
def timedOut (now : ℕ) (p : CheckPair) (s : Session) : Bool :=
  decide (p.state = .inProgress ∧ s.retryLimit ≤ p.retries) &&
    !decide (p.txnSendUs ≠ 0 ∧
      elapsed now p.txnSendUs < s.baseRto <<< (s.cfg.maxCheckRetries - 1))

theorem timedOut_congr (h : t.cfg = s.cfg) : t.timedOut now p = s.timedOut now p := by
  unfold timedOut retryLimit baseRto
  rw [h]

theorem timedOut_of_thaws {p q : CheckPair} (h : Thaws p q) (now : ℕ) :
    s.timedOut now q = s.timedOut now p := by
  rcases h with rfl | ⟨hf, rfl⟩
  · rfl
  · simp [timedOut, hf]

theorem sendCheck_checkList (hp : s.checkList[i]? = some p) (hr : p.retries < s.retryLimit) :
    (s.sendCheck env i).checkList = s.checkList.modify i fun p =>
      { p with retries := p.retries + 1, txnSendUs := env.clock s.draws } := by
  rw [sendCheck, hp]
  dsimp only
  rw [if_neg (Nat.not_le.mpr hr)]
  exact congrArg Core.checkList (transmit_core env _ _ _)

theorem failPair_checkList (hp : s.checkList[i]? = some p) :
    (s.failPair i).checkList = CheckPair.unfreezeSiblings p.loc.foundation p.rem.foundation
      (s.checkList.modify i fun p => { p with state := .failed }) := by
  rw [failPair, hp]
  rfl

private theorem getElem?_modify_ne {i j : ℕ} {p : CheckPair}
    (hp : ps[j]? = some p) (hij : j ≠ i) (f : CheckPair → CheckPair) :
    (ps.modify i f)[j]? = some p := by
  simp [Ne.symm hij, hp]

private theorem getElem?_modify_self {i : ℕ} {p : CheckPair}
    (hp : ps[i]? = some p) (f : CheckPair → CheckPair) : (ps.modify i f)[i]? = some (f p) := by
  simp [hp]

theorem failPair_at_ne (hp : s.checkList[j]? = some p) (hij : j ≠ i) :
    ∃ q, (s.failPair i).checkList[j]? = some q ∧ Thaws p q := by
  cases hi : s.checkList[i]? with
  | none =>
    rw [failPair, hi]
    exact ⟨p, hp, .refl p⟩
  | some r =>
    rw [failPair_checkList hi]
    exact exists_right_of_getElem? unfreezeSiblings_thaws (getElem?_modify_ne hp hij _)

theorem failPair_at_self (hp : s.checkList[i]? = some p) :
    (s.failPair i).checkList[i]? = some { p with state := .failed } := by
  rw [failPair_checkList hp]
  obtain ⟨q, hq, h⟩ := exists_right_of_getElem?
    unfreezeSiblings_thaws
    (getElem?_modify_self hp fun p => { p with state := .failed })
  rcases h with rfl | ⟨hf, -⟩
  · exact hq
  · cases hf

/-- The first pass at another pair. -/
theorem retransmitPair_at_ne (env : Env) (now : ℕ) (hp : s.checkList[j]? = some p) (hij : j ≠ i) :
    ∃ q, (s.retransmitPair env now i).checkList[j]? = some q ∧ Thaws p q := by
  unfold retransmitPair
  cases hi : s.checkList[i]? with
  | none => exact ⟨p, hp, .refl p⟩
  | some r =>
    dsimp only
    split_ifs with _ hr _ hr'
    · exact ⟨p, hp, .refl p⟩
    · exact ⟨p, hp, .refl p⟩
    · exact failPair_at_ne hp hij
    · exact ⟨p, hp, .refl p⟩
    · rw [sendCheck_checkList hi (Nat.not_le.mp hr)]
      exact ⟨p, getElem?_modify_ne hp hij _, .refl p⟩

private theorem retransmitPair_at_self (hp : s.checkList[i]? = some p) :
    ∃ q, (s.retransmitPair env now i).checkList[i]? = some q ∧
      q.state = if s.timedOut now p then .failed else p.state := by
  unfold retransmitPair
  rw [hp]
  dsimp only
  by_cases hs : p.state = .inProgress
  · rw [if_neg (not_not.mpr hs)]
    by_cases hr : s.retryLimit ≤ p.retries
    · rw [if_pos hr]
      split_ifs with ht hl hl
      · simp [timedOut, ht] at hl
      · exact ⟨p, hp, rfl⟩
      · exact ⟨_, failPair_at_self hp, rfl⟩
      · simp [timedOut, hs, hr, ht] at hl
    · have hl : s.timedOut now p = false := by simp [timedOut, hr]
      rw [if_neg hr, hl, if_neg Bool.false_ne_true]
      split_ifs
      · exact ⟨p, hp, rfl⟩
      · rw [sendCheck_checkList hp (Nat.not_le.mp hr)]
        exact ⟨_, getElem?_modify_self hp _, rfl⟩
  · have hl : s.timedOut now p = false := by simp [timedOut, hs]
    rw [if_pos hs, hl, if_neg Bool.false_ne_true]
    exact ⟨p, hp, rfl⟩

/-- The first pass over a list of indices: pairs whose time is over fail, the others stay, up to
unfreezing. -/
theorem retransmitAll_at (env : Env) {is : List ℕ} (hnd : is.Nodup) (now : ℕ)
    (hp : s.checkList[j]? = some p) :
    ∃ q, (s.retransmitAll env now is).checkList[j]? = some q ∧
      if j ∈ is ∧ s.timedOut now p then q.state = .failed else Advances p q := by
  induction is generalizing s p with
  | nil => exact ⟨p, hp, by simp [Advances.refl]⟩
  | cons i is ih =>
    obtain ⟨hi, his⟩ := nodup_cons.mp hnd
    have hcfg : (s.retransmitPair env now i).cfg = s.cfg :=
      (retransmitPair_ticks env s).scheduled.cfg
    by_cases hij : j = i
    · subst hij
      obtain ⟨q, hq, hqs⟩ := retransmitPair_at_self hp
      obtain ⟨r, hr, hrs⟩ := ih his hq
      rw [if_neg fun h => hi h.1] at hrs
      refine ⟨r, hr, ?_⟩
      by_cases hl : s.timedOut now p = true
      · rw [if_pos hl] at hqs
        rw [if_pos ⟨mem_cons_self, hl⟩]
        rcases hrs with h | ⟨h, -⟩ | ⟨h, -⟩
        · rw [h, hqs]
        · simp [hqs] at h
        · simp [hqs] at h
      · rw [if_neg hl] at hqs
        rw [if_neg fun h => hl h.2]
        exact Advances.trans (.inl hqs) hrs
    · obtain ⟨q, hq, hthaw⟩ := retransmitPair_at_ne env now hp hij
      obtain ⟨r, hr, hrs⟩ := ih his hq
      rw [timedOut_congr hcfg, timedOut_of_thaws hthaw] at hrs
      refine ⟨r, hr, ?_⟩
      simp only [mem_cons, hij, false_or]
      split_ifs at hrs ⊢
      exacts [hrs, (Advances.of_thaws hthaw).trans hrs]

private theorem startCheck_checkList (hp : s.checkList[i]? = some p)
    (hr : p.retries < s.retryLimit) :
    (s.startCheck env i).checkList = s.checkList.modify i fun p =>
      { p with
        state := .inProgress
        retries := p.retries + 1
        txnSendUs := env.clock s.draws } := by
  have hpaint : (s.modifyPair i fun p => { p with state := .inProgress }).checkList[i]? =
      some { p with state := .inProgress } := getElem?_modify_self hp _
  rw [startCheck, sendCheck_checkList hpaint hr]
  exact modify_modify_eq ..

private theorem startCheck_advances (hp : s.checkList[i]? = some p)
    (hw : p.state = .waiting) (hr : p.retries < s.retryLimit) :
    List.Forall₂ Advances s.checkList (s.startCheck env i).checkList := by
  rw [startCheck_checkList hp hr]
  refine forall₂_modify_at .refl fun q hq => ?_
  rw [hp] at hq
  exact .inr (.inr ⟨Option.some.inj hq ▸ hw, rfl⟩)

theorem promoteWaiting_advances (env : Env) (is : List ℕ) (s : Session) :
    List.Forall₂ Advances s.checkList (promoteWaiting env is s).checkList := by
  induction is generalizing s with
  | nil => exact forall₂_refl .refl _
  | cons i is ih =>
    simp only [promoteWaiting]
    split_ifs
    · exact forall₂_refl .refl _
    · split
      · exact forall₂_refl .refl _
      · rename_i p hp
        refine forall₂_trans (fun _ _ _ => .trans) ?_ (ih _)
        split_ifs with hw
        · exact startCheck_advances hp hw.1 hw.2
        · exact forall₂_refl .refl _

private theorem firstPass_at (env : Env) {j : ℕ} {p : CheckPair} (hp : s.checkList[j]? = some p) :
    ∃ q, (s.unfreezeStuckPairs.drawn.retransmitAll env (env.clock s.draws)
        s.unfreezeStuckPairs.indices).checkList[j]? = some q ∧
      if s.timedOut (env.clock s.draws) p then q.state = .failed else Advances p q := by
  obtain ⟨r, hr, hthaw⟩ := exists_right_of_getElem? (unfreezeStuck_thaws s.checkList) hp
  have hnd : s.unfreezeStuckPairs.indices.Nodup := nodup_range
  obtain ⟨q, hq, h⟩ := retransmitAll_at env (s := s.unfreezeStuckPairs.drawn) hnd
    (env.clock s.draws) hr
  have hj : j ∈ s.unfreezeStuckPairs.indices :=
    mem_range.mpr (List.getElem?_eq_some_iff.mp hr).1
  rw [timedOut_of_thaws hthaw] at h
  refine ⟨q, hq, ?_⟩
  by_cases hl : s.timedOut (env.clock s.draws) p = true
  · rw [if_pos ⟨hj, hl⟩] at h
    rwa [if_pos hl]
  · rw [if_neg fun h => hl h.2] at h
    rw [if_neg hl]
    exact (Advances.of_thaws hthaw).trans h

theorem checkPasses_at (hp : s.checkList[j]? = some p) :
    ∃ q, (s.checkPasses env).2.checkList[j]? = some q ∧
      if s.timedOut (env.clock s.draws) p then q.state = .failed else Advances p q := by
  obtain ⟨r, hr, h⟩ := firstPass_at env hp
  obtain ⟨q, hq, hadv⟩ := exists_right_of_getElem? (promoteWaiting_advances env
    (s.unfreezeStuckPairs.drawn.retransmitAll env (env.clock s.draws)
      s.unfreezeStuckPairs.indices).indices _) hr
  refine ⟨q, hq, ?_⟩
  split_ifs at h ⊢
  · rcases hadv with hadv | ⟨hf, -⟩ | ⟨hf, -⟩
    · rw [hadv, h]
    · simp [h] at hf
    · simp [h] at hf
  · exact h.trans hadv

/-- Some pair is pending, with its check in time. -/
def underway (env : Env) (s : Session) : Bool :=
  s.checkList.any fun p => p.isPending && !s.timedOut (env.clock s.draws) p

theorem checkPasses_fst : (s.checkPasses env).1 = s.underway env := by
  rw [underway, Bool.eq_iff_iff, any_eq_true]
  change List.any _ _ = true ↔ _
  rw [any_eq_true]
  constructor
  · rintro ⟨q, hq, hpend⟩
    obtain ⟨j, hj⟩ := mem_iff_getElem?.mp hq
    have hlen := (retransmitAll_ticks env s.unfreezeStuckPairs.drawn (env.clock s.draws)
      s.unfreezeStuckPairs.indices).scheduled.checkList
    obtain ⟨r, hr, -⟩ := exists_left_of_getElem? hlen hj
    obtain ⟨p, hp, -⟩ := exists_left_of_getElem? (unfreezeStuck_thaws s.checkList) hr
    obtain ⟨q', hq', h⟩ := firstPass_at env hp
    obtain rfl := Option.some.inj (hj.symm.trans hq')
    refine ⟨p, mem_of_getElem? hp, ?_⟩
    split_ifs at h with hl
    · simp [CheckPair.isPending, h] at hpend
    · simp [hl, ← h.isPending, hpend]
  · rintro ⟨p, hp, h⟩
    obtain ⟨j, hj⟩ := mem_iff_getElem?.mp hp
    obtain ⟨q, hq, hadv⟩ := firstPass_at env hj
    simp only [Bool.and_eq_true, Bool.not_eq_true'] at h
    rw [h.2, if_neg Bool.false_ne_true] at hadv
    exact ⟨q, mem_of_getElem? hq, hadv.isPending.trans h.1⟩

end Session

end LinkIce
