import LinkIce.Session.LinkPaths
import LinkIce.Session.LocalCandidates
import LinkIce.Session.RelayPermissions

/-! The end of candidates. Every signal is an OFFER_EOC or an ANSWER_EOC, and a session that
collects a candidate after its first signal sends another one under the same credentials. -/
namespace LinkIce
open Stun List

def Event.collects : Event → Bool
  | .gather | .restart | .udpData .. | .tcpFrame _ => true
  | .task (.turnAllocated _) | .task (.backupAllocated _) | .task (.relayStun ..)
  | .task (.keepalive _) => true
  | _ => false

def Effect.publication : Effect → Option LocalDescription
  | onGathered d => some d
  | _ => none

namespace Session

variable {H : Hmac} {env : Env} {A : Set Label} {s t u : Session} {d : Delivery} {e : Event}
  {l : Label} {m : StunMessage}

def publications (s : Session) : List LocalDescription := s.log.filterMap (·.publication)

/-- No signal shows a candidate that an earlier one with the same ufrag lacks. -/
def EndsTruthfully (s : Session) : Prop :=
  s.publications.Pairwise fun later earlier =>
    later.ufrag = earlier.ufrag → later.candidates.map (·.bare) ⊆ earlier.candidates.map (·.bare)

/-- Each signal sent under the current credentials shows all the candidates there are now. -/
def NothingNew (s : Session) : Prop :=
  ∀ d ∈ s.publications, d.ufrag = s.localUfrag →
    s.localCandidates.map (·.bare) ⊆ d.candidates.map (·.bare)

def Unsignalled (ufrag : Bytes) (s : Session) : Prop := ∀ d ∈ s.publications, d.ufrag ≠ ufrag

instance (s : Session) : Decidable s.EndsTruthfully :=
  inferInstanceAs (Decidable (List.Pairwise _ _))

instance (s : Session) : Decidable s.NothingNew :=
  inferInstanceAs (Decidable (∀ d ∈ s.publications, d.ufrag = s.localUfrag →
    s.localCandidates.map (·.bare) ⊆ d.candidates.map (·.bare)))

instance (ufrag : Bytes) (s : Session) : Decidable (s.Unsignalled ufrag) :=
  inferInstanceAs (Decidable (∀ d ∈ s.publications, d.ufrag ≠ ufrag))

/-- The event may signal under this ufrag: the current one, or one that a restart draws. -/
def signalsUnder (H : Hmac) (env : Env) (s : Session) (e : Event) (ufrag : Bytes) : Prop :=
  (.restart ∉ s.allowed H env e ∧ ufrag = s.localUfrag) ∨
    (.restart ∈ s.allowed H env e ∧ ∃ n, s.draws ≤ n ∧ ufrag = env.ufrag n)

/-- A step that may signal comes when there is nothing new to tell and collects nothing, or
it signals under a ufrag for the first time. -/
def KeepsItsWord (H : Hmac) (env : Env) (s : Session) (e : Event) : Prop :=
  .publish ∈ s.allowed H env e →
    ((∀ l ∈ s.allowed H env e, l.touchesLocals = false) ∧ s.NothingNew) ∨
    ∀ ufrag, s.signalsUnder H env e ufrag → s.Unsignalled ufrag

/-! ### Signals that tell nothing new -/

theorem publications_of_unpublished (h : Logs (·.isPublication = false) s t) :
    t.publications = s.publications := by
  obtain ⟨new, hn, hnew⟩ := h
  have hnone : new.filterMap (·.publication) = [] := by
    refine filterMap_eq_nil_iff.mpr fun e he => ?_
    cases e with
    | onGathered => cases hnew _ he
    | _ => rfl
  rw [publications, hn, filterMap_append, hnone, nil_append, publications]

theorem endsTruthfully_of_unpublished (h : Logs (·.isPublication = false) s t)
    (hs : s.EndsTruthfully) : t.EndsTruthfully := by
  rwa [EndsTruthfully, publications_of_unpublished h]

@[simp] theorem publications_onGathered :
    s.onGathered.publications = s.localDescription :: s.publications := rfl

theorem endsTruthfully_onGathered (hs : s.EndsTruthfully) (hn : s.NothingNew) :
    s.onGathered.EndsTruthfully := by
  rw [EndsTruthfully, publications_onGathered, pairwise_cons]
  exact ⟨fun d hd hu => hn d hd hu.symm, hs⟩

theorem nothingNew_onGathered (hn : s.NothingNew) : s.onGathered.NothingNew := by
  intro d hd hu
  rcases mem_cons.mp hd with rfl | hd
  · exact List.Subset.refl _
  · exact hn d hd hu

private theorem bareLocals_of_act {l : Option Label} (h : Act env s l t)
    (hl : ∀ a ∈ l, a.touchesLocals = false) :
    t.localCandidates.map (·.bare) = s.localCandidates.map (·.bare) := by
  rcases act_locals h hl with he | he
  · rw [he]
  · rw [he, map_map]
    exact map_congr_left fun c _ => c.bare_withFoundation env.net

theorem steps_tell_nothing_new (h : Steps env A s t) (hA : ∀ l ∈ A, l.touchesLocals = false)
    (hs : s.EndsTruthfully) (hn : s.NothingNew) : t.EndsTruthfully := by
  refine (h.invariant (I := fun u => u.EndsTruthfully ∧ u.NothingNew)
    (fun {u v l} hl hact hu => ?_) ⟨hs, hn⟩).1
  by_cases hp : l = some .publish
  · subst hp
    cases hact
    exact ⟨endsTruthfully_onGathered hu.1 hu.2, nothingNew_onGathered hu.2⟩
  · have hlogs := act_unpublished hact hp
    refine ⟨endsTruthfully_of_unpublished hlogs hu.1, fun d hd huf => ?_⟩
    have hufrag := (act_credentials hact fun hr => nomatch hA _ (hl _ hr)).1
    rw [bareLocals_of_act hact fun a ha => hA a (hl a ha)]
    rw [publications_of_unpublished hlogs] at hd
    exact hu.2 d hd (huf.trans hufrag)

/-! ### Collect first, signal afterwards -/

/-- From `s` to `t` nothing is signalled, or nothing is until all candidates are collected
that `t` has, under a ufrag in `U`. -/
def Collects (env : Env) (U : Bytes → Prop) (s t : Session) : Prop :=
  Logs (·.isPublication = false) s t ∨ ∃ u, Logs (·.isPublication = false) s u ∧
    U u.localUfrag ∧ Steps env { l | l.touchesLocals = false } u t

def fresh (env : Env) (s : Session) (ufrag : Bytes) : Prop :=
  ∃ n, s.draws ≤ n ∧ ufrag = env.ufrag n

theorem fresh_mono (h : s.draws ≤ t.draws) {ufrag : Bytes} (hf : t.fresh env ufrag) :
    s.fresh env ufrag := by
  obtain ⟨n, hn, he⟩ := hf
  exact ⟨n, h.trans hn, he⟩

namespace Collects

variable {U V : Bytes → Prop}

theorem before (h : Logs (·.isPublication = false) s t) (hc : Collects env U t u)
    (hU : ∀ ufrag, U ufrag → V ufrag) : Collects env V s u := by
  rcases hc with hc | ⟨v, hv, huf, hp⟩
  · exact .inl (h.trans hc)
  · exact .inr ⟨v, h.trans hv, hU _ huf, hp⟩

theorem after (hc : Collects env U s t) (h : Steps env A t u)
    (hA : ∀ l ∈ A, l ≠ .publish ∧ l.touchesLocals = false) : Collects env U s u := by
  rcases hc with hc | ⟨v, hv, huf, hp⟩
  · exact .inl (hc.trans (steps_unpublished h fun hp => (hA _ hp).1 rfl))
  · exact .inr ⟨v, hv, huf, hp.trans (h.mono fun l hl => (hA l hl).2)⟩

theorem endsTruthfully (hc : Collects env U s t) (hU : ∀ ufrag, U ufrag → s.Unsignalled ufrag)
    (hs : s.EndsTruthfully) : t.EndsTruthfully := by
  rcases hc with hc | ⟨u, hu, huf, hp⟩
  · exact endsTruthfully_of_unpublished hc hs
  · refine steps_tell_nothing_new hp (fun _ => id) (endsTruthfully_of_unpublished hu hs) ?_
    intro d hd he
    rw [publications_of_unpublished hu] at hd
    exact absurd he (hU _ huf d hd)

end Collects

theorem steps_localUfrag (h : Steps env A s t) (hA : .restart ∉ A) : t.localUfrag = s.localUfrag :=
  h.invariant (I := fun u => u.localUfrag = s.localUfrag)
    (fun hl hact hu => (act_credentials hact fun hr => hA (hl _ hr)).1.trans hu) rfl

theorem checkLabels_touchesLocals : checkLabels ⊆ { l | l.touchesLocals = false } := by
  intro l hl
  cases l with
  | rebuild | exhaust | liteCheck => rfl
  | _ => exact hl.elim

theorem gather_collects (env : Env) (s : Session) :
    Collects env (· = s.localUfrag) s (s.gather env) := by
  have hcollect : Steps env {.gather (s.state = .failed), .hosts} s
      (((s.setState .gathering).gatherHostCandidates env).gatherPortmap env) :=
    (Path.visible (.gather s) (.inl rfl)).trans
      ((gatherHostCandidates_steps (.inr rfl)).trans (gatherPortmap_steps (.inr rfl)))
  refine .inr ⟨_, steps_unpublished hcollect (by simp), steps_localUfrag hcollect (by simp), ?_⟩
  refine (gatherRelay_steps (A := { l | l.touchesLocals = false }) rfl rfl).trans ?_
  unfold gather
  dsimp only [gatherCandidates]
  split_ifs
  · exact .refl _
  · exact onGatheringComplete_steps rfl rfl fun _ =>
      starts_checkLabels.trans checkLabels_touchesLocals
  · exact steps_quiet (.post _ trivial)

theorem restart_collects (env : Env) (s : Session) :
    Collects env (s.fresh env) s (s.restart env) := by
  unfold restart
  split_ifs with h
  · exact .inl (.refl s)
  · obtain ⟨n, hn, hc⟩ := reset_core env s
    refine (gather_collects env _).before (act_unpublished (.restart s h) nofun) ?_
    rintro _ rfl
    exact ⟨n, hn, congrArg Core.localUfrag hc⟩

theorem notifyConsentLoss_collects : Collects env (s.fresh env) s (s.notifyConsentLoss env) := by
  unfold notifyConsentLoss
  dsimp only
  split_ifs
  · have hcount : Logs (·.isPublication = false) s (s.drawn.countAutoRestart (env.clock s.draws)) :=
      .emit _ rfl
    exact (restart_collects env _).before hcount fun _ => fresh_mono (Nat.le_succ _)
  · exact .inl (.emit _ rfl)
  · exact .inl ⟨[.onFailed, .setState .failed, s.failure .consentLoss], rfl,
      by simp [Effect.isPublication, failure]⟩

theorem onKeepalive_collects (env : Env) (s : Session) :
    Collects env (s.fresh env) s (s.onKeepalive env) := by
  by_cases hl : s.losesConsent ∧ s.cfg.consentMaxRecovery ≤ s.consentRecoveryAttempts
  · have hlog : Logs (·.isPublication = false) s s.withoutConsent := .emit _ rfl
    have hspent : ¬ s.withoutConsent.consentRecoveryAttempts <
      s.withoutConsent.cfg.consentMaxRecovery := not_lt.mpr hl.2
    rw [onKeepalive_lost hl.1, onConsentLost, if_neg hspent]
    exact notifyConsentLoss_collects.before hlog fun _ => fresh_mono le_rfl
  · have hpath : Steps env { l | l ≠ .publish } s (s.onKeepalive env) :=
      onKeepalive_steps ⟨by simp, by simp, fun h₁ h₂ => absurd ⟨h₁, h₂⟩ hl, by simp⟩ (by simp)
    exact .inl (steps_unpublished hpath fun h => h rfl)

theorem afterNomination_collects {ep : Endpoint} {relay : Bool} :
    Collects env (s.fresh env) s (s.afterNomination env ep relay) := by
  obtain ⟨t, hq, he⟩ := afterNomination_eq env s ep relay
  rw [he]
  have hquiet : Steps env ∅ s t := steps_quiet hq
  have hlogs : Logs (·.isPublication = false) s (t.emit (.onConnected ep)) :=
    (steps_unpublished hquiet (Set.notMem_empty _)).trans (.emit _ rfl)
  refine Collects.after (A := ∅) ?_ beginPathMtu_steps fun _ h => h.elim
  exact (onKeepalive_collects env _).before hlogs fun _ => fresh_mono hq.draws

theorem onNominated_collects (env : Env) (origin : NominationOrigin) (ep : Endpoint)
    (relay : Bool) (cid : Cid) (tx : TransportType) (s : Session) :
    Collects env (s.fresh env) s (s.onNominated env origin ep relay cid tx) := by
  have hcommit : Logs (·.isPublication = false) s (s.commitNomination origin ep relay cid tx) :=
    ⟨[.setState .connected, .nominated origin s.controlling ep relay cid tx], rfl,
      by simp [Effect.isPublication]⟩
  exact afterNomination_collects.before hcommit fun _ => fresh_mono le_rfl

theorem handleGatherResponse_collects (env : Env) (m : StunMessage) (tx : TransportType)
    (s : Session) : Collects env (· = s.localUfrag) s (s.handleGatherResponse env m tx) := by
  rw [handleGatherResponse_eq]
  split_ifs
  · have hlearn : Steps env {.srflx (srflxCandidate env.net (m.xorMapped.getD ⟨[], 0⟩) tx)} s
        (s.learnSrflx env m tx) := learnSrflx_steps m tx rfl
    refine .inr ⟨_, steps_unpublished hlearn nofun, steps_localUfrag hlearn nofun, ?_⟩
    exact onFirstSrflx_steps rfl rfl fun _ _ _ => starts_checkLabels.trans checkLabels_touchesLocals
  · exact .inl (.refl s)

theorem onTurnAllocated_collects (env : Env) (c : Candidate) (s : Session) :
    Collects env (· = s.localUfrag) s (s.onTurnAllocated env c) := by
  rw [onTurnAllocated_eq]
  split_ifs with ha
  · have hlearn : Steps env {.work, .relay c} s (s.learnRelay env c) :=
      learnRelay_steps c (.inl rfl) (.inr rfl) ha
    refine .inr ⟨_, steps_unpublished hlearn (by simp), steps_localUfrag hlearn (by simp), ?_⟩
    have hsettle : Steps env { l | l.touchesLocals = false } (s.learnRelay env c)
        ((s.learnRelay env c).onTurnSettled env) :=
      onTurnSettled_steps rfl rfl fun _ _ => starts_checkLabels.trans checkLabels_touchesLocals
    exact hsettle.trans (foldRelayIntoChecks_steps rfl fun _ _ =>
      rechecks_checkLabels.trans checkLabels_touchesLocals)
  · exact .inl (.of_log_eq rfl)

/-! ### Steps -/

private theorem collects_of_allowed (h : l ∈ s.allowed H env e)
    (hl : l.touchesLocals = true) : e.collects = true := by
  rcases h with h | ⟨d, hd, -⟩
  · cases l with
    | hosts | srflx | prflx | relay | takeover | restart =>
      cases e with
      | gather | restart | udpData | tcpFrame => rfl
      | task k =>
        cases k with
        | turnAllocated | backupAllocated | relayStun | keepalive => rfl
        | _ => exact h.2.elim
      | _ => exact h.elim
    | _ => cases hl
  · unfold inbound at hd
    split at hd
    · rfl
    · rfl
    · rfl
    · cases hd

theorem touchesLocals_of_event (he : e.collects = false)
    (hl : l ∈ s.allowed H env e) : l.touchesLocals = false := by
  by_contra h
  rw [collects_of_allowed hl (by simpa using h)] at he
  cases he

theorem step_collects_nothing (he : e.collects = false) :
    Collects env (s.signalsUnder H env e) s (s.step H env e) := by
  have hno (l : Label) (hl : l ∈ s.allowed H env e) := touchesLocals_of_event he hl
  have hr : .restart ∉ s.allowed H env e := fun hr => nomatch hno _ hr
  exact .inr ⟨s, .refl s, .inl ⟨hr, rfl⟩, (step_steps H env s e).mono hno⟩

theorem accepted_of_gatherResponse (h : m ∈ d.gatherResponse env) : d.accepted H env = none := by
  unfold Delivery.gatherResponse at h
  unfold Delivery.accepted
  split_ifs at h ⊢
  · cases h
  · obtain ⟨hp, hg⟩ := Option.filter_eq_some_iff.mp h
    rw [hp, Option.filter_some, if_neg (by simp [hg])]

theorem inbound_unpublished (env : Env) (hd : d ∈ s.inbound e) :
    Logs (·.isPublication = false) s d.session ∧ d.session.localUfrag = s.localUfrag ∧
      s.draws ≤ d.session.draws := by
  obtain ⟨⟨l, -, hw⟩, -⟩ := step_inbound zeroHmac env hd
  obtain ⟨new, hn, hq⟩ := hw.log
  refine ⟨⟨new, hn, fun e he => ?_⟩, congrArg Core.localUfrag hw.core, hw.draws⟩
  cases e with
  | onGathered => cases hq _ he
  | _ => rfl

private theorem restart_not_allowed_of_gatherResponse (hd : d ∈ s.inbound e)
    (hm : m ∈ d.gatherResponse env) : .restart ∉ s.allowed H env e := by
  rintro (h | ⟨d', hd', ⟨h, -⟩ | ⟨m', -, h⟩ | ⟨m', hm', -⟩⟩)
  · cases e with
    | restart => cases hd
    | task k =>
      cases k with
      | keepalive => cases hd
      | _ => exact h.2.elim
    | _ => exact h.elim
  · cases h
  · exact h
  · obtain rfl := Option.mem_unique hd hd'
    rw [accepted_of_gatherResponse hm] at hm'
    cases hm'

/-- A step that may signal collects first. -/
theorem step_collects (hp : .publish ∈ s.allowed H env e) :
    Collects env (s.signalsUnder H env e) s (s.step H env e) := by
  have hcurrent (hr : .restart ∉ s.allowed H env e) (ufrag : Bytes) (hu : ufrag = s.localUfrag) :
      s.signalsUnder H env e ufrag := .inl ⟨hr, hu⟩
  have hfresh (hr : .restart ∈ s.allowed H env e) (ufrag : Bytes) (hu : s.fresh env ufrag) :
      s.signalsUnder H env e ufrag := .inr ⟨hr, hu⟩
  rcases hp with h | ⟨d, hd, ⟨h, -⟩ | ⟨m, hm, -⟩ | ⟨m, hm, h⟩⟩
  · cases e with
    | gather =>
      refine (gather_collects env s).before (.refl s) (hcurrent ?_)
      rintro (h | ⟨d, hd, -⟩)
      exacts [h, by cases hd]
    | restart => exact (restart_collects env s).before (.refl s) (hfresh (.inl h))
    | task k =>
      have hstep : s.step H env (.task k) = (s.dequeue k).runTask H env k := if_pos h.1
      cases k with
      | turnAllocated c =>
        rw [hstep]
        refine (onTurnAllocated_collects env c (s.dequeue _)).before (.of_log_eq rfl) (hcurrent ?_)
        rintro (h | ⟨d, hd, -⟩)
        exacts [h.2, by cases hd]
      | keepalive gen =>
        rw [hstep, runTask, if_pos h.2.1]
        exact (onKeepalive_collects env (s.dequeue _)).before (.of_log_eq rfl) (hfresh (.inl h))
      | backupAllocated | relayStun => exact h.2.elim
      | _ => exact step_collects_nothing rfl
    | addRemoteCandidates => exact step_collects_nothing rfl
    | _ => exact h.elim
  · cases h
  · obtain ⟨hlogs, hufrag, -⟩ := inbound_unpublished env hd
    rw [(step_inbound H env hd).2, onCarrierData_gatherResponse hm]
    refine (handleGatherResponse_collects env m _ d.session).before hlogs fun ufrag hu => ?_
    exact hcurrent (restart_not_allowed_of_gatherResponse hd hm) ufrag (hu.trans hufrag)
  · obtain ⟨hlogs, -, hdraws⟩ := inbound_unpublished env hd
    rw [(step_inbound H env hd).2, onCarrierData_accepted hm]
    obtain ⟨v, origin, ep, relay, c, tx, hleads, -, hrest⟩ := onStun_nominates h.1
    refine ((onNominated_collects env origin ep relay c tx v).after hrest ?_).before
      (hlogs.trans hleads.unpublished) fun ufrag hu => ?_
    · rintro l ⟨stale, strays, full, rfl⟩
      exact ⟨by simp, rfl⟩
    · exact hfresh (.inr ⟨d, hd, .inr (.inr ⟨m, hm, h⟩)⟩) ufrag
        (fresh_mono (hdraws.trans hleads.draws) hu)

theorem step_endsTruthfully (h : s.KeepsItsWord H env e) (hs : s.EndsTruthfully) :
    (s.step H env e).EndsTruthfully := by
  by_cases hp : .publish ∈ s.allowed H env e
  · rcases h hp with ⟨hno, hn⟩ | hU
    · exact steps_tell_nothing_new (step_steps H env s e) hno hs hn
    · exact (step_collects hp).endsTruthfully hU hs
  · exact endsTruthfully_of_unpublished (steps_unpublished (step_steps H env s e) hp) hs

/-- In every run whose steps keep their word an end of candidates stays true. -/
theorem end_of_candidates_truthful (H : Hmac) (env : Env) (cfg : IceConfig) (w : Wiring)
    (controlling : Bool) (tiebreaker : ℕ) (es : List Event)
    (h : Along (step H env) (fun s e => s.KeepsItsWord H env e)
      (create env cfg w controlling tiebreaker) es) :
    ∀ fs, fs <+: es → ((create env cfg w controlling tiebreaker).run H env fs).EndsTruthfully := by
  intro fs hfs
  exact (h.restrict hfs).invariant (fun _ _ => step_endsTruthfully) List.Pairwise.nil

/-- The responder answers while its TURN allocation is in flight. -/
def lateRelay : List Event :=
  [.gather, .addRemoteCandidates [1] [2] [peerHost] false,
    .turnStream false (serverFrame allocateResponse),
    .task (.turnAllocated (relayCandidate Env.lan.net ⟨Inet.dotted 192 0 2 1, 49152⟩))]

def relayedResponder : Session :=
  create .lan { turnServers := [{ server := Inet.dotted 192 0 2 1, tcpTransport := true }] }
    { carrierTcp := true } false 7

/-- The relay candidate comes after the end of candidates. -/
theorem relay_after_end_of_candidates :
    ¬ ∃ H : Hmac, (relayedResponder.run H .lan lateRelay).EndsTruthfully := by
  rintro ⟨H, h⟩
  rw [run_isLocal (by decide) H zeroHmac] at h
  exact absurd h (by decide +kernel)

theorem keepsItsWord_of_unsignalled (hr : .restart ∉ s.allowed H env e)
    (h : s.Unsignalled s.localUfrag) : s.KeepsItsWord H env e := by
  rintro -
  refine .inr fun ufrag hu => ?_
  rcases hu with ⟨-, rfl⟩ | ⟨hr', -⟩
  · exact h
  · exact absurd hr' hr

theorem keepsItsWord_of_nothingNew (he : e.collects = false) (h : s.NothingNew) :
    s.KeepsItsWord H env e := fun _ => .inl ⟨fun _ hl => touchesLocals_of_event he hl, h⟩

def earlyRelay : List Event :=
  [.gather, .turnStream false (serverFrame allocateResponse),
    .task (.turnAllocated (relayCandidate Env.lan.net ⟨Inet.dotted 192 0 2 1, 49152⟩)),
    .addRemoteCandidates [1] [2] [peerHost] false]

theorem relay_before_end_of_candidates :
    let s := relayedResponder.run zeroHmac .lan earlyRelay
    s.publications.length = 2 ∧ s.EndsTruthfully := by
  refine ⟨by decide +kernel, ?_⟩
  refine end_of_candidates_truthful _ .lan
    { turnServers := [{ server := Inet.dotted 192 0 2 1, tcpTransport := true }] }
    { carrierTcp := true }
    false 7 earlyRelay ⟨keepsItsWord_of_unsignalled ?_ (by decide +kernel),
      keepsItsWord_of_unsignalled ?_ (by decide +kernel),
      keepsItsWord_of_unsignalled ?_ (by decide +kernel),
      keepsItsWord_of_nothingNew rfl (by decide +kernel), trivial⟩ _ (prefix_refl _)
  · rintro (h | ⟨d, hd, -⟩)
    exacts [h, nomatch hd]
  · rintro (h | ⟨d, hd, -⟩)
    exacts [h, nomatch hd]
  · rintro (h | ⟨d, hd, -⟩)
    exacts [h.2, nomatch hd]

end Session

end LinkIce
