import LinkIce.Session.Nominee

/-! How much loss the nomination of a regular controller tolerates. -/
namespace LinkIce
open Stun List

namespace Effect

/-- A controlling session fails while it is checking and has a valid pair. -/
def dropsValid : Effect → Bool
  | failedBy _ .checking true ps _ _ => ps.any (·.valid)
  | _ => false

def nominationSends (txn : TransactionId) (log : List Effect) : ℕ :=
  log.countP (·.useCandidateTxn = some txn)

def nominationAnswered (p : CheckPair) (log : List Effect) : Bool :=
  log.any fun
    | checkSucceeded q => decide (q.txnId = p.txnId) && q.nomineeCheckSent
    | _ => false

/-- Every failure that drops a valid pair comes after `n` unanswered USE-CANDIDATE requests on
one of them. -/
def nominationTried (n : ℕ) : List Effect → Bool
  | [] => true
  | failedBy _ .checking true ps _ _ :: older =>
    (!ps.any (·.valid) || ps.any fun p => p.valid && decide (n ≤ nominationSends p.txnId older) &&
      !nominationAnswered p older) && nominationTried n older
  | _ :: older => nominationTried n older

theorem nominationTried_of_kept {n : ℕ} {log : List Effect}
    (h : ∀ e ∈ log, e.dropsValid = false) : nominationTried n log = true := by
  fun_induction nominationTried n log with
  | case1 => rfl
  | case2 _ ps _ _ older ih =>
    have hps : ps.any (·.valid) = false := h _ mem_cons_self
    rw [hps, ih fun e he => h e (mem_cons_of_mem _ he)]
    rfl
  | case3 e older _ ih => exact ih fun e he => h e (mem_cons_of_mem _ he)

end Effect

namespace Session

open Effect

variable {H : Hmac} {env : Env} {A : Set Label} {s t : Session} {e : Event} {u : Session}

/-- The check machinery gives up the valid pairs of a controlling session: a tick finds no
pending pair, or a nomination wait from its time as controlled session is over. -/
def givesUpValid (env : Env) (s : Session) : Event → Prop
  | .task (.checkTick gen) =>
    .checkTick gen ∈ s.queue ∧ s.checkGen = gen ∧ s.state = .checking ∧ s.controlling = true ∧
      s.underway env = false ∧ ∃ p ∈ s.checkList, p.valid = true
  | .task (.nominationWait gen) =>
    .nominationWait gen ∈ s.queue ∧ s.nominationWaitGen = gen ∧ s.state = .checking ∧
      s.controlling = true ∧ ∃ p ∈ s.checkList, p.valid = true
  | _ => False

theorem act_dropsValid {l : Option Label} (h : Act env s l t)
    (hx : l = some (.exhaust s) → s.controlling = true → ∀ p ∈ s.checkList, p.valid = false)
    (he : ∀ premature, l = some (.expire premature) → s.state = .checking → s.controlling = true →
      ∀ p ∈ s.checkList, p.valid = false) : Logs (·.dropsValid = false) s t := by
  have hclean (h : s.state = .checking → s.controlling = true → ∀ p ∈ s.checkList, p.valid = false)
      (origin : FailureOrigin) : (s.failure origin).dropsValid = false := by
    unfold failure
    cases hs : s.state with
    | checking =>
      cases hc : s.controlling with
      | true =>
        have hv := h hs hc
        simpa [dropsValid] using hv
      | false => rfl
    | _ => rfl
  refine act_logs_of_failure h (fun e hf => ?_) fun origin hf => ?_
  · cases e with
    | failedBy => cases hf
    | _ => rfl
  · cases hf with
    | exhaust => exact hclean (fun _ => hx rfl) _
    | expire => exact hclean (he _ rfl) _
    | loseConsent hst => exact hclean (fun h => by simp [hst] at h) _

private theorem givesUpValid_of_exhaust {p : CheckPair}
    (h : .exhaust u ∈ s.allowed H env e) (hc : u.controlling = true) (hp : p ∈ u.checkList)
    (hv : p.valid = true) : s.givesUpValid env e := by
  rcases exhaust_cases h with hu | hu | ⟨gen, rfl, hq, hg, hu⟩
  · rw [(hu p hp).valid] at hv
    cases hv
  · rw [hc] at hu
    cases hu
  · have hs := givesUp_scheduled hu
    obtain ⟨q, hq', he⟩ := exists_left_of_mem hs.checkList hp
    exact ⟨hq, hg, hu.1, hs.controlling.symm.trans hc, hu.2.1, q, hq', he.valid ▸ hv⟩

theorem step_dropsValid (h : ¬ s.givesUpValid env e) :
    Logs (·.dropsValid = false) s (s.step H env e) := by
  by_cases he : ∃ gen, e = .task (.nominationWait gen)
  · obtain ⟨gen, rfl⟩ := he
    rcases step_nominationWait with hact | hact | ⟨hq, hg, hact⟩
    · exact hact.symm ▸ .refl s
    · exact act_dropsValid hact nofun nofun
    · refine (Logs.of_log_eq (t := s.dequeue (.nominationWait gen)) rfl).trans
        (act_dropsValid hact nofun fun _ _ hst hc p hp => ?_)
      by_contra hv
      exact h ⟨hq, hg, hst, hc, p, hp, Bool.eq_true_of_not_eq_false hv⟩
  · refine (step_steps H env s e).invariant (I := Logs (·.dropsValid = false) s)
      (fun {u v l} hl hact hu => hu.trans (act_dropsValid hact (fun hx hc p hp => ?_)
        fun premature hx => ?_)) (.refl s)
    · by_contra hv
      exact h (givesUpValid_of_exhaust (hl _ hx) hc hp (Bool.eq_true_of_not_eq_false hv))
    · obtain ⟨gen, hgen, -⟩ := nominationWait_of_expire (hl _ hx)
      exact absurd ⟨gen, hgen⟩ he

/-- A nominee that is picked between the two states has its USE-CANDIDATE request sent. -/
def PickSent (s t : Session) : Prop :=
  s.nomineeSelected = false → t.nomineeSelected = true →
    ∃ new, t.log = new ++ s.log ∧ ∃ e ∈ new, e.useCandidateTxn.isSome = true

theorem PickSent.extend (h : PickSent s t)
    (hn : u.nomineeSelected = true → t.nomineeSelected = true) (hl : t.log <:+ u.log) :
    PickSent s u := by
  intro hs hu
  obtain ⟨new, hnew, e, he, huc⟩ := h hs (hn hu)
  obtain ⟨more, hmore⟩ := hl
  exact ⟨more ++ new, by rw [← hmore, hnew, append_assoc], e, mem_append_right _ he, huc⟩

theorem step_pickSent (h : .pick false ∉ s.allowed H env e) : PickSent s (s.step H env e) := by
  refine ((step_steps H env s e).invariant (I := fun u => PickSent s u ∧ s.log <:+ u.log)
    (fun {u v l} hl hact hu => ⟨?_, hu.2.trans (act_log_suffix hact)⟩)
    ⟨fun hs ht => by simp [hs] at ht, suffix_refl _⟩).1
  by_cases hp : ∃ leaves, l = some (.pick leaves)
  · obtain ⟨leaves, rfl⟩ := hp
    cases hact with
    | pick hn hc ha hv =>
      have hleaves : u.pickLeaves env = true := by
        by_contra hn
        have hmem := hl _ rfl
        rw [Bool.eq_false_iff.mpr hn] at hmem
        exact h hmem
      obtain ⟨i, p, x, -, -, hx, hlog⟩ := pickNominee_sends hleaves
      obtain ⟨more, hmore⟩ := hu.2
      intro _ _
      refine ⟨x :: more, by rw [hlog, ← hmore]; rfl, x, mem_cons_self, ?_⟩
      rw [useCandidateTxn_of_sends hx, checkMessage_useCandidateTxn]
      simp [hc]
  · exact hu.1.extend (act_nomineeSelected hact fun leaves hl => hp ⟨leaves, hl⟩)
      (act_log_suffix hact)

/-- The step gives up valid pairs, or it picks a nominee without a word to the peer. -/
def wastesNominee (H : Hmac) (env : Env) (s : Session) (e : Event) : Prop :=
  s.givesUpValid env e ∨ .pick false ∈ s.allowed H env e

/-- In a run without such steps a failure that drops valid pairs has been preceded by all the
USE-CANDIDATE requests that the retries allow, and every pick is sent. -/
theorem run_nominationTried (H : Hmac) (env : Env) (cfg : IceConfig) (w : Wiring)
    (controlling : Bool) (tiebreaker : ℕ) (es : List Event)
    (h : Along (step H env) (fun s e => ¬ s.wastesNominee H env e)
      (create env cfg w controlling tiebreaker) es) :
    nominationTried cfg.maxCheckRetries
        ((create env cfg w controlling tiebreaker).run H env es).log = true ∧
      Along (step H env) (fun s e => PickSent s (s.step H env e))
        (create env cfg w controlling tiebreaker) es := by
  constructor
  · refine nominationTried_of_kept (h.invariant
      (I := fun s : Session => ∀ e ∈ s.log, e.dropsValid = false) (fun s e hs hlog x hx => ?_)
      (by simp [create]))
    obtain ⟨new, hn, hnew⟩ := step_dropsValid (H := H) (fun hg => hs (.inl hg))
    rw [hn] at hx
    rcases mem_append.mp hx with hx | hx
    exacts [hnew x hx, hlog x hx]
  · rw [along_iff_each_step] at h ⊢
    exact fun fs e hp => step_pickSent fun hpick => h fs e hp (.inr hpick)

/-- The follow-up goes out once, and the next tick gives the session up. -/
def followUpLost : List Input := checkPicked ++ [.event (.task (.checkTick 1))]

theorem follow_up_not_repeated :
    ¬ ∃ H : Hmac, nominationTried 4 ((create .lan {} {} true 7).run H .lan
        (followUpLost.map (·.toEvent H))).log = true ∧
      Along (step H .lan) (fun s e => PickSent s (s.step H .lan e)) (create .lan {} {} true 7)
        (followUpLost.map (·.toEvent H)) := by
  rintro ⟨H, h, -⟩
  have hplay : ((create .lan {} {} true 7).play .lan followUpLost).any
      (fun s => !nominationTried 4 s.log) = true := by decide +kernel
  have hbad := run_of_play_any hplay H
  rw [h] at hbad
  cases hbad

theorem follow_up_sent :
    ((create .lan {} {} true 7).play .lan checkPicked).any
        (fun s => decide (s.state = .checking) && s.nomineeSelected) = true ∧
      nominationTried 4 ((create .lan {} {} true 7).run zeroHmac .lan
        (checkPicked.map (·.toEvent zeroHmac))).log = true ∧
      Along (step zeroHmac .lan)
        (fun s e => PickSent s (s.step zeroHmac .lan e))
        (create .lan {} {} true 7) (checkPicked.map (·.toEvent zeroHmac)) := by
  have hsafe : (create .lan {} {} true 7).playAlong .lan (picksSafely .lan) checkPicked = true := by
    decide +kernel
  refine ⟨by decide +kernel, run_nominationTried _ .lan {} _ _ _ _
    (along_of_play (fun s i hf hi => ?_) hsafe)⟩
  rintro (h | h)
  · cases i with
    | event e =>
      cases e with
      | task => cases hi
      | _ => exact h
    | stun => exact h
  · exact pickLeaves_of_picksSafely hf hi h

end Session

end LinkIce
