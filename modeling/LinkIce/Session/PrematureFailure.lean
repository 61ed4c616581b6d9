import LinkIce.Session.Script

/-! When the check machinery gives up: no pair may be pending, and no follow-up check of a
controlling session may be outstanding. -/
namespace LinkIce
open Stun List

/-- A failure that the check machinery declares while Checking is not premature. -/
def Effect.timely : Effect → Bool
  | failedBy .checksExhausted .checking controlling ps _ _
  | failedBy .nominationWait .checking controlling ps _ _ =>
    !(ps.any (·.isPending) || (controlling && ps.any (·.awaitingNomination)))
  | _ => true

namespace Session

variable {H : Hmac} {env : Env} {A : Set Label} {s t : Session} {e : Event}

private theorem timely_of_not_failure {e : Effect} (h : e.isFailure = false) : e.timely = true := by
  cases e with
  | failedBy => cases h
  | _ => rfl

theorem act_timely {l : Option Label} (h : Act env s l t)
    (ha : l = some (.exhaust s) → s.controlling = true →
      ∀ p ∈ s.checkList, p.awaitingNomination = false)
    (he : l ≠ some (.expire true)) : Logs (·.timely = true) s t := by
  refine act_logs_of_failure h (fun _ => timely_of_not_failure) fun origin hf => ?_
  cases hf with
  | exhaust hst hp =>
    have hn := ha rfl
    have hpend : s.checkList.any (·.isPending) = false := any_eq_false.mpr (by simpa using hp)
    cases hc : s.controlling with
    | false => simp [failure, hst, Effect.timely, hpend, hc]
    | true =>
      have hawait : s.checkList.any (·.awaitingNomination) = false :=
        any_eq_false.mpr (by simpa using hn hc)
      simp [failure, hst, Effect.timely, hpend, hawait]
  | expire =>
    have hdone : s.checksUnfinished = false := by
      by_contra hu
      exact he (by simpa using hu)
    unfold failure
    cases hst : s.state with
    | checking =>
      simp only [checksUnfinished, hst, decide_true, Bool.true_and] at hdone
      simp only [Effect.timely, hdone, Bool.not_false]
    | _ => rfl
  | loseConsent => rfl

/-- A tick gives up an outstanding follow-up check, or the nomination-wait timer fires while
checks are running: after it was armed the list was rebuilt, a pair was added or the role
changed. -/
def failsEarly (env : Env) (s : Session) : Event → Prop
  | .task (.checkTick gen) =>
    .checkTick gen ∈ s.queue ∧ s.checkGen = gen ∧ s.abandonsNominee env
  | .task (.nominationWait gen) =>
    .nominationWait gen ∈ s.queue ∧ s.nominationWaitGen = gen ∧ s.checksUnfinished = true
  | _ => False

theorem failsEarly_of_exhaust {u : Session} {p : CheckPair}
    (h : .exhaust u ∈ s.allowed H env e) (hc : u.controlling = true) (hp : p ∈ u.checkList)
    (ha : p.awaitingNomination = true) : s.failsEarly env e := by
  rcases exhaust_cases h with hu | hu | ⟨gen, rfl, hq, hg, hu⟩
  · rw [(hu p hp).awaitingNomination] at ha
    cases ha
  · rw [hc] at hu
    cases hu
  · have hs := givesUp_scheduled hu
    exact ⟨hq, hg, hu.1, hs.controlling.symm.trans hc, hu.2.1, hs.awaitingNomination hp ha⟩

private theorem failsEarly_of_expire (h : .expire true ∈ s.allowed H env e) :
    s.failsEarly env e := by
  obtain ⟨gen, rfl, hq, hg, hu⟩ := nominationWait_of_expire h
  exact ⟨hq, hg, hu.symm⟩

theorem step_timely (h : ¬ s.failsEarly env e) : Logs (·.timely = true) s (s.step H env e) := by
  refine (step_steps H env s e).invariant (I := Logs (·.timely = true) s)
    (fun {u v l} hl hstep hu => hu.trans (act_timely hstep ?_ ?_)) (.refl s)
  · intro hl' hc p hp
    by_contra ha
    exact h (failsEarly_of_exhaust (hl _ hl') hc hp (by simpa using ha))
  · rintro rfl
    exact h (failsEarly_of_expire (hl _ rfl))

/-! ### Premature failures show -/

theorem fail_untimely {origin : FailureOrigin} (h : (s.failure origin).timely = false) :
    ∃ e ∈ (s.fail origin).log, e.timely = false :=
  ⟨_, mem_cons_of_mem _ (mem_cons_of_mem _ mem_cons_self), h⟩

private theorem runNextCheck_untimely (h : s.abandonsNominee env) :
    ∃ e ∈ (s.runNextCheck env).log, e.timely = false := by
  obtain ⟨hs, hc, hex, p, hp, ha⟩ := h
  rw [← checkPasses_fst] at hex
  have hsch := checkPasses_scheduled env s
  have hstate := hsch.state.trans hs
  have hctl := hsch.controlling.trans hc
  have hstays : p ∈ (s.checkPasses env).2.checkList := by
    obtain ⟨q, hq, hset⟩ := exists_right_of_mem (checkPasses_ticks env s).settled hp
    have hdone : p.isPending = false := by
      simp only [CheckPair.awaitingNomination, Bool.and_eq_true, decide_eq_true_eq] at ha
      simp [CheckPair.isPending, ha.2]
    rw [hset hdone] at hq
    exact hq
  have hany : (s.checkPasses env).2.checkList.any (·.awaitingNomination) = true :=
    any_eq_true.mpr ⟨p, hstays, ha⟩
  unfold runNextCheck
  rw [if_neg (not_not.mpr hs)]
  dsimp only
  rw [if_neg (by simp [hex]), checksExhausted, if_neg (by simp [hstate]), if_neg (by simp [hctl])]
  exact fail_untimely (by simp [failure, Effect.timely, hstate, hctl, hany])

/-- The condition is exact: such a step does log a failure before its time. -/
theorem step_untimely (h : s.failsEarly env e) : ∃ x ∈ (s.step H env e).log, x.timely = false := by
  cases e with
  | task k =>
    cases k with
    | checkTick gen =>
      obtain ⟨hq, hg, ha⟩ := h
      simp only [step, if_pos hq, runTask]
      rw [if_pos (show (s.dequeue _).checkGen = gen from hg)]
      exact runNextCheck_untimely ha
    | nominationWait gen =>
      obtain ⟨hq, hg, hu⟩ := h
      have hst : s.state = .checking := by
        simp only [checksUnfinished, Bool.and_eq_true, decide_eq_true_eq] at hu
        exact hu.1
      simp only [step, if_pos hq, runTask]
      rw [if_pos (show (s.dequeue _).nominationWaitGen = gen from hg), onNominationWaitExpired,
        if_neg (by simp [dequeue, hst])]
      refine fail_untimely ?_
      simp only [checksUnfinished, hst, decide_true, Bool.true_and] at hu
      simp only [failure, dequeue, hst, Effect.timely, hu, Bool.not_true]
    | _ => exact h.elim
  | _ => exact h.elim

/-- In a run no failure is premature if and only if no step fails early. -/
theorem failures_timely_iff (H : Hmac) (env : Env) (cfg : IceConfig) (w : Wiring)
    (controlling : Bool) (tiebreaker : ℕ) (es : List Event) :
    (∀ e ∈ ((create env cfg w controlling tiebreaker).run H env es).log, e.timely = true) ↔
      Along (step H env) (fun s e => ¬ s.failsEarly env e)
        (create env cfg w controlling tiebreaker) es := by
  have hinit : ∀ e ∈ (create env cfg w controlling tiebreaker).log, e.timely = true := by
    simp [create]
  refine observed_iff_along (G := fun s : Session => ∀ e ∈ s.log, e.timely = true)
    (J := fun _ => True) (fun s e h x hx => ?_) (fun _ _ _ => trivial) (fun s e h hs x hx => ?_)
    (fun _ h => h) (fun s e _ h hgood => ?_) trivial hinit
  · exact h x ((steps_log_suffix (step_steps H env s e)).subset hx)
  · obtain ⟨new, hn, ht⟩ := step_timely (H := H) h
    rw [hn] at hx
    rcases mem_append.mp hx with hx | hx
    exacts [ht x hx, hs x hx]
  · obtain ⟨x, hx, hu⟩ := step_untimely (H := H) (not_not.mp h)
    rw [hgood x hx] at hu
    cases hu

/-- The only check succeeds, the follow-up goes out, and the next tick comes before its
response. -/
def tickAfterPick : List Input :=
  [.event .gather, .event (.addRemoteCandidates [1] [2] [peerHost] false),
    .stun 6 (peerResponse [2] (Env.lan.txnId 3)), .event (.task (.checkTick 1))]

theorem nominee_given_up :
    ¬ ∃ H : Hmac, ∀ e ∈ ((create .lan {} {} true 7).run H .lan
      (tickAfterPick.map (·.toEvent H))).log, e.timely = true := by
  rintro ⟨H, h⟩
  have hplay : ((create .lan {} {} true 7).play .lan tickAfterPick).any
      (fun s => s.log.any fun e => !e.timely) = true := by decide +kernel
  obtain ⟨e, he, hn⟩ := any_eq_true.mp (run_of_play_any hplay H)
  rw [h e he] at hn
  cases hn

end Session

end LinkIce
