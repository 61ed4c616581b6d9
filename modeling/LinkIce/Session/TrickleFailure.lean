import LinkIce.Session.Script

/-! Giving up while the peer may still trickle candidates. -/
namespace LinkIce
open Stun List

/-- The check machinery declares a Checking session failed because its list is exhausted, at
once or after it has waited for USE-CANDIDATE. -/
def Effect.isExhaustion : Effect → Bool
  | failedBy .checksExhausted .checking .. | failedBy .nominationWait .checking .. => true
  | _ => false

namespace Session

variable {H : Hmac} {env : Env} {A : Set Label} {s t : Session} {e : Effect} {l : Option Label}

theorem act_remoteEndOfCandidates (h : Act env s l t)
    (hl : l ≠ some .restart) (hs : s.remoteEndOfCandidates = true) :
    t.remoteEndOfCandidates = true := by
  have of_core {u : Session}
      (h : u.core.remoteEndOfCandidates = s.core.remoteEndOfCandidates) :
      u.remoteEndOfCandidates = true := h.trans hs
  cases h with
  | quiet h | work h | release h | deliver h | turnInput h => exact of_core (by rw [h.core])
  | rebuild => exact of_core (by rw [buildCheckList_core])
  | check i | liteCheck i => exact of_core (by rw [(sendCheck_scheduled env s i).core])
  | pick => exact of_core (by rw [pickNominee_core])
  | respond | reject => exact of_core (by rw [reply_core])
  | noteEnd => rfl
  | restart | autoRestart => exact absurd rfl hl
  | _ => exact hs

theorem mem_sinceRestart_of_logs {P : Effect → Prop} (h : Logs P s t)
    (he : e ∈ t.sinceRestart) (hP : ¬ P e) : e ∈ s.sinceRestart := by
  obtain ⟨new, hn, hnew⟩ := h
  rw [sinceRestart, hn, takeWhile_append] at he
  split_ifs at he
  · rcases mem_append.mp he with he | he
    exacts [absurd (hnew e he) hP, he]
  · exact absurd (hnew e ((List.takeWhile_prefix _).subset he)) hP

/-- Since the last restart the list has been given up only if the peer had announced the end
of its candidates. -/
def TrickleAware (s : Session) : Prop :=
  (∃ e ∈ s.sinceRestart, e.isExhaustion = true) → s.remoteEndOfCandidates = true

theorem isFailure_of_isExhaustion (h : e.isExhaustion = true) : e.isFailure = true := by
  cases e with
  | failedBy => rfl
  | _ => cases h

theorem reset_sinceRestart : ∀ e ∈ (s.reset env).sinceRestart, e.isFailure = false := by
  intro e he
  obtain ⟨new, hn, hq⟩ := reset_log env s
  have hmem : e ∈ Effect.setState .new :: new := by
    rw [sinceRestart, hn, show Effect.setState .new :: (new ++ Effect.restarted :: s.log) =
      (Effect.setState .new :: new) ++ Effect.restarted :: s.log from rfl] at he
    rw [takeWhile_append] at he
    split_ifs at he
    · simpa using he
    · exact (List.takeWhile_prefix _).subset he
  rcases mem_cons.mp hmem with rfl | h
  · rfl
  · have hquiet := hq e h
    cases e with
    | failedBy => cases hquiet
    | _ => rfl

def exhausts (s : Session) (l : Option Label) : Prop :=
  l = some (.exhaust s) ∨ (∃ premature, l = some (.expire premature)) ∧ s.state = .checking

theorem act_noExhaustion (h : Act env s l t) (hl : ¬ s.exhausts l) :
    Logs (·.isExhaustion = false) s t := by
  refine act_logs_of_failure h (fun e he => ?_) fun origin hf => ?_
  · by_contra hn
    rw [isFailure_of_isExhaustion (by simpa using hn)] at he
    cases he
  · cases hf with
    | exhaust => exact absurd (.inl rfl) hl
    | expire =>
      have hst : s.state ≠ .checking := fun hst => hl (.inr ⟨⟨_, rfl⟩, hst⟩)
      unfold failure
      cases hs : s.state with
      | checking => exact absurd hs hst
      | _ => rfl
    | loseConsent => rfl

theorem act_trickleAware (h : Act env s l t)
    (hx : s.exhausts l → s.remoteEndOfCandidates = true) (hs : TrickleAware s) :
    TrickleAware t := by
  rintro ⟨e, he, hex⟩
  have hfail := isFailure_of_isExhaustion hex
  by_cases hl : l = some .restart
  · subst hl
    have hold (u : Session) (hu : e ∈ (u.reset env).sinceRestart) :
        t.remoteEndOfCandidates = true := by
      rw [reset_sinceRestart e hu] at hfail
      cases hfail
    cases h with
    | restart => exact hold s he
    | autoRestart now => exact hold _ he
  · refine act_remoteEndOfCandidates h hl ?_
    by_cases hl' : s.exhausts l
    · exact hx hl'
    · exact hs ⟨e, mem_sinceRestart_of_logs (act_noExhaustion h hl') he (by simp [hex]), hex⟩

/-- The step gives up a list that the peer could still add candidates to: the scheduler finds
no pending pair, or the wait for USE-CANDIDATE is over. -/
def exhaustsEarly (H : Hmac) (env : Env) (s : Session) (e : Event) : Prop :=
  (∃ u, .exhaust u ∈ s.allowed H env e ∧ u.remoteEndOfCandidates = false) ∨
    ∃ gen, e = .task (.nominationWait gen) ∧ .nominationWait gen ∈ s.queue ∧
      s.nominationWaitGen = gen ∧ s.state = .checking ∧ s.remoteEndOfCandidates = false

theorem nominationWait_trickleAware {gen : ℕ}
    (h : ¬ s.exhaustsEarly H env (.task (.nominationWait gen))) (hs : TrickleAware s) :
    TrickleAware (s.step H env (.task (.nominationWait gen))) := by
  rcases step_nominationWait with hact | hact | ⟨hq, hg, hact⟩
  · exact hact.symm ▸ hs
  · exact act_trickleAware hact (fun hx => by simp [exhausts] at hx) hs
  · refine act_trickleAware hact (fun hx => ?_) hs
    rcases hx with hx | ⟨-, hx⟩
    · cases hx
    · by_contra hn
      exact h (.inr ⟨gen, rfl, hq, hg, hx, Bool.eq_false_iff.mpr hn⟩)

theorem step_trickleAware {e : Event} (h : ¬ s.exhaustsEarly H env e) (hs : TrickleAware s) :
    TrickleAware (s.step H env e) := by
  by_cases he : ∃ gen, e = .task (.nominationWait gen)
  · obtain ⟨gen, rfl⟩ := he
    exact nominationWait_trickleAware h hs
  · refine (step_steps H env s e).invariant (fun {u v l} hl hact hu => ?_) hs
    refine act_trickleAware hact (fun hx => ?_) hu
    rcases hx with hx | ⟨⟨premature, hx⟩, -⟩
    · by_contra hn
      exact h (.inl ⟨u, hl _ hx, by simpa using hn⟩)
    · obtain ⟨gen, hgen, -⟩ := nominationWait_of_expire (hl _ hx)
      exact absurd ⟨gen, hgen⟩ he

/-- In a run without such steps the list is only ever given up after the end of candidates. -/
theorem run_trickleAware (H : Hmac) (env : Env) (cfg : IceConfig) (w : Wiring)
    (controlling : Bool) (tiebreaker : ℕ) (es : List Event)
    (h : Along (step H env) (fun s e => ¬ s.exhaustsEarly H env e)
      (create env cfg w controlling tiebreaker) es) :
    ∀ fs, fs <+: es → TrickleAware ((create env cfg w controlling tiebreaker).run H env fs) := by
  intro fs hp
  refine (h.restrict hp).invariant (fun _ _ => step_trickleAware) ?_
  rintro ⟨e, he, -⟩
  simp [sinceRestart, create] at he

def peerMdns : Candidate := { peerHost with type := .hostMdns, hostname := pLocal }

def hiddenPeer (endOfCandidates : Bool) : List Input :=
  [.event .gather, .event (.addRemoteCandidates [1] [2] [peerMdns] endOfCandidates)]

/-- The first batch holds nothing but a name that is still to be resolved. -/
theorem hidden_peer_given_up :
    ¬ ∃ H : Hmac, TrickleAware ((create .lan {} {} true 7).run H .lan
      ((hiddenPeer false).map (·.toEvent H))) := by
  rintro ⟨H, h⟩
  have hplay : ((create .lan {} {} true 7).play .lan (hiddenPeer false)).any
      (fun s => s.sinceRestart.any (·.isExhaustion) && !s.remoteEndOfCandidates) = true := by
    decide +kernel
  have hrun := run_of_play_any hplay H
  simp only [Bool.and_eq_true, Bool.not_eq_true'] at hrun
  have := h (any_eq_true.mp hrun.1)
  rw [hrun.2] at this
  cases this

private theorem candidateStarts_remoteEndOfCandidates {u : Session}
    (h : .exhaust u ∈ s.candidateStarts env) :
    u.remoteEndOfCandidates = s.remoteEndOfCandidates := by
  unfold candidateStarts at h
  split_ifs at h
  · exact (rechecks_untried h).2
  · rw [(starts_untried h).2]
    exact congrArg Core.remoteEndOfCandidates (publishAnswer_core s)

/-- After the end of candidates the same list is rightly given up. -/
theorem hidden_peer_ended :
    ((create .lan {} {} true 7).play .lan (hiddenPeer true)).any
        (fun s => s.sinceRestart.any (·.isExhaustion)) = true ∧
      ∀ fs, fs <+: (hiddenPeer true).map (·.toEvent zeroHmac) →
        TrickleAware ((create .lan {} {} true 7).run zeroHmac .lan fs) := by
  refine ⟨by decide +kernel, run_trickleAware _ .lan {} {} true 7 _ ⟨?_, ?_, trivial⟩⟩
  · rintro (⟨u, (⟨⟨-, -, h⟩, -⟩ | ⟨d, hd, -⟩), -⟩ | ⟨gen, he, -⟩)
    · exact h rfl
    · cases hd
    · cases he
  · rintro (⟨u, (⟨-, h⟩ | ⟨d, hd, -⟩), hu⟩ | ⟨gen, he, -⟩)
    · rw [candidateStarts_remoteEndOfCandidates h] at hu
      exact absurd hu (by decide +kernel)
    · cases hd
    · cases he

end Session

end LinkIce
