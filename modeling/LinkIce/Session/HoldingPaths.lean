import LinkIce.Session.Holdings
import LinkIce.Session.NominatedRoute

/-! What one step does to the holdings, and that outside nominations a step never makes a
session Connected. -/
namespace LinkIce
open Stun Option

namespace Session

variable {H : Hmac} {env : Env} {A : Set Label} {s t u : Session} {e : Event} {l : Option Label}
  {m : StunMessage} {size : ℕ}

/-! ### Staying Connected -/

/-- If the session is Connected, it was so before, and over the same path. -/
def Calm (s t : Session) : Prop :=
  t.state = .connected → s.state = .connected ∧
    (s.nominatedCid ≠ 0 → t.nominatedPath = s.nominatedPath)

theorem Calm.refl (s : Session) : Calm s s := fun h => ⟨h, fun _ => rfl⟩

theorem Calm.trans (hst : Calm s t) (htu : Calm t u) : Calm s u := by
  intro hu
  obtain ⟨ht, hpath⟩ := htu hu
  obtain ⟨hs, hpath'⟩ := hst ht
  refine ⟨hs, fun hcid => ?_⟩
  have hsame := hpath' hcid
  have htcid : t.nominatedCid ≠ 0 := by
    rw [show t.nominatedCid = s.nominatedCid from congrArg NominatedPath.cid hsame]
    exact hcid
  exact (hpath htcid).trans hsame

theorem SameRoute.calm (h : SameRoute s t) (ht : t.state = .connected) :
    s.state = .connected ∧ (s.nominatedCid ≠ 0 → t.nominatedPath = s.nominatedPath) := by
  refine ⟨h.state ▸ ht, fun hcid => ?_⟩
  simp only [nominatedPath, h.ep, h.relay, h.cid hcid, h.transport]

theorem act_calm (h : Act env s l t) (hl : ∀ a, l = some a → a.rewritesRoute = false) : Calm s t :=
  fun ht => (act_sameRoute h hl ht).calm ht

theorem Calm.of_steps (h : Steps env A s t) (hA : ∀ l ∈ A, l.rewritesRoute = false) : Calm s t :=
  h.invariant (I := Calm s) (fun hl hact hu => hu.trans (act_calm hact fun a ha =>
    hA a (hl a ha))) (.refl s)

theorem act_nominations (h : Act env s l t) :
    (∀ a ∈ l, a.nominates = false) ∨ ∃ x, t.mail.nominations = x :: s.mail.nominations := by
  cases h with
  | nominateOwn | nominateDeferred | nominateNow => exact .inr ⟨_, rfl⟩
  | _ =>
    left
    rintro a ha
    cases ha
    try rfl

private theorem nominations_suffix (h : s.log <:+ t.log) :
    s.mail.nominations <:+ t.mail.nominations :=
  h.filter _

theorem steps_unnominated (h : Steps env A s t) (hn : t.mail.nominations = s.mail.nominations) :
    Steps env { l ∈ A | l.nominates = false } s t := by
  induction h with
  | refl => exact .refl s
  | @tail t u l hp hact hl ih =>
    have hst := nominations_suffix (steps_log_suffix hp)
    have htu := nominations_suffix (act_log_suffix hact)
    have ht : t.mail.nominations = s.mail.nominations :=
      (hst.eq_of_length_le (hn ▸ htu.length_le)).symm
    refine (ih ht).tail hact fun a ha => ⟨hl a ha, ?_⟩
    rcases act_nominations hact with hnone | ⟨x, hx⟩
    · exact hnone a ha
    · rw [hn, ht] at hx
      exact absurd hx (List.cons_ne_self _ _).symm

theorem steps_calm (h : Steps env A s t) (hA : .teardown ∉ A)
    (hn : t.mail.nominations = s.mail.nominations) : Calm s t := by
  refine .of_steps (steps_unnominated h hn) fun l ⟨hl, hquiet⟩ => ?_
  cases l with
  | teardown => exact absurd hl hA
  | nominateOwn | nominateDeferred | nominateNow => cases hquiet
  | _ => rfl

private theorem teardown_licensed (h : .teardown ∈ s.allowed H env e) :
    e = .task .closeTeardown := by
  have h := eventAllowed_of_isLocal h rfl
  cases e with
  | task k =>
    cases k with
    | closeTeardown => rfl
    | _ => exact h.2.elim
  | _ => exact h.elim

theorem step_calm (hn : (s.step H env e).mail.nominations = s.mail.nominations)
    (hc : (s.step H env e).state = .connected) :
    s.state = .connected ∧ (e ≠ .task .closeTeardown → s.nominatedCid ≠ 0 →
      (s.step H env e).nominatedPath = s.nominatedPath) := by
  have hsteps := step_steps H env s e
  constructor
  · by_contra hs
    exact steps_notConnected ((steps_unnominated hsteps hn).mono fun l hl => hl.2) hs hc
  · intro he
    exact (steps_calm hsteps (fun h => he (teardown_licensed h)) hn hc).2

/-! ### Gathering -/

/-- The holdings are kept, but that the port mapper may have been asked once. -/
def Roams (env : Env) (s t : Session) : Prop :=
  Retains s t ∨ ∃ u, Retains s u ∧ Retains (u.gatherPortmap env) t

theorem Roams.after (htu : Roams env t u) (hst : Retains s t) : Roams env s u := by
  rcases htu with h | ⟨v, hv, h⟩
  exacts [.inl (h.after hst), .inr ⟨v, hv.after hst, h⟩]

theorem gather_roams : Roams env s (s.gather env) := by
  have hhosts : Retains s ((s.setState .gathering).gatherHostCandidates env) :=
    (gatherHostCandidates_retains env _).after rfl
  refine .inr ⟨_, hhosts, ?_⟩
  unfold gather gatherCandidates
  dsimp only
  generalize ((s.setState .gathering).gatherHostCandidates env).gatherPortmap env = v
  have hrelay := gatherRelay_retains env v
  generalize v.gatherRelay env = w at hrelay ⊢
  split_ifs
  · exact hrelay
  · exact (onGatheringComplete_retains env w).after hrelay
  · exact Retains.after rfl hrelay

theorem restart_roams : Roams env s (s.restart env) := by
  unfold restart
  split_ifs
  · exact .inl rfl
  · exact gather_roams.after (reset_retains env s)

theorem notifyConsentLoss_roams : Roams env s (s.notifyConsentLoss env) := by
  unfold notifyConsentLoss
  split_ifs
  · dsimp only
    split_ifs
    · exact restart_roams.after rfl
    · exact .inl rfl
  · exact .inl rfl

theorem onKeepalive_roams (env : Env) (s : Session) : Roams env s (s.onKeepalive env) := by
  unfold onKeepalive
  split_ifs
  · exact .inl rfl
  · extract_lets u
    have hu : Retains s u := rfl
    split_ifs
    · unfold onConsentLost
      split_ifs
      · exact .inl ((startChecking_retains env _).after (Retains.after rfl hu))
      · exact notifyConsentLoss_roams.after (Retains.after rfl hu)
    · refine .inl ((armKeepaliveTimer_retains _).after ((sendKeepalive_retains env _).after ?_))
      exact (noteKeepalive_retains env u).after hu

theorem onKeepalive_calm (env : Env) (s : Session) : Calm s (s.onKeepalive env) := by
  refine Calm.of_steps (A := { l | l.rewritesRoute = false })
    (onKeepalive_steps ?_ ?_) fun l hl => hl
  · refine ⟨fun _ => rfl, fun _ _ => rfl, fun _ _ => ⟨rfl, rfl, ?_⟩, fun _ _ => rfl⟩
    exact gatherLabels_subset rfl rfl rfl rfl
  · exact fun _ _ u _ => rfl

/-! ### The port mapper -/

theorem gatherPortmap_keeps :
    (s.gatherPortmap env).mail = s.mail ∧ (s.gatherPortmap env).search = s.search ∧
      (s.gatherPortmap env).types = s.types := by
  unfold gatherPortmap
  split
  · exact ⟨rfl, rfl, rfl⟩
  · split
    · exact ⟨rfl, rfl, rfl⟩
    · rename_i ext _
      dsimp only
      generalize hu : s.drawn.noteObtained (s.portmapUsable env ext) = u
      have hs : u.mail = s.mail ∧ u.search = s.search ∧ u.types = s.types := hu ▸ ⟨rfl, rfl, rfl⟩
      split
      · have hpush := pushLocal_retains u (portmapCandidate env.net ext)
        generalize u.pushLocal (portmapCandidate env.net ext) = v at hpush ⊢
        exact ⟨hpush.mail.trans hs.1, hpush.search.trans hs.2.1, hpush.types.trans hs.2.2⟩
      · exact hs

theorem Roams.mail (h : Roams env s t) : t.mail = s.mail := by
  rcases h with h | ⟨u, hu, h⟩
  · exact h.mail
  · rw [h.mail, (gatherPortmap_keeps).1, hu.mail]

theorem Roams.search (h : Roams env s t) : t.search = s.search := by
  rcases h with h | ⟨u, hu, h⟩
  · exact h.search
  · rw [h.search, (gatherPortmap_keeps).2.1, hu.search]

theorem Roams.types (h : Roams env s t) : t.types = s.types := by
  rcases h with h | ⟨u, hu, h⟩
  · exact h.types
  · rw [h.types, (gatherPortmap_keeps).2.2, hu.types]

theorem releasePortmapMapping_mail : s.releasePortmapMapping.mail = s.mail := by
  unfold releasePortmapMapping
  split
  · split <;> rfl
  · rfl

theorem releasePortmapMapping_search : s.releasePortmapMapping.search = s.search := by
  unfold releasePortmapMapping
  split
  · split <;> rfl
  · rfl

theorem releasePortmapMapping_types : s.releasePortmapMapping.types = s.types := by
  unfold releasePortmapMapping
  split
  · split <;> rfl
  · rfl

/-! ### The path-MTU search -/

structure Measures (s t : Session) : Prop where
  mail : t.mail = s.mail
  mapper : t.mapper = s.mapper
  types : t.types = s.types
  state : t.state = s.state
  path : t.nominatedPath = s.nominatedPath

namespace Measures

theorem refl (s : Session) : Measures s s := ⟨rfl, rfl, rfl, rfl, rfl⟩

theorem trans (hst : Measures s t) (htu : Measures t u) : Measures s u :=
  ⟨htu.mail.trans hst.mail, htu.mapper.trans hst.mapper, htu.types.trans hst.types,
    htu.state.trans hst.state, htu.path.trans hst.path⟩

theorem after (htu : Measures t u) (hst : Measures s t) : Measures s u := hst.trans htu

end Measures

theorem armPmtuTimer_measures : Measures s s.armPmtuTimer := by
  unfold armPmtuTimer
  split <;> exact ⟨rfl, rfl, rfl, rfl, rfl⟩

theorem sendPmtuProbe_measures : Measures s (s.sendPmtuProbe env size) := by
  unfold sendPmtuProbe
  split
  · exact .refl s
  · exact armPmtuTimer_measures.after ⟨rfl, rfl, rfl, rfl, rfl⟩

theorem noteMtuProbe_measures : Measures s (s.noteMtuProbe env size) := by
  unfold noteMtuProbe
  split <;> exact ⟨rfl, rfl, rfl, rfl, rfl⟩

theorem startPathMtuProbe_measures : Measures s (s.startPathMtuProbe env) := by
  unfold startPathMtuProbe
  split
  · exact .refl s
  · split
    · exact .refl s
    · split
      · exact ⟨rfl, rfl, rfl, rfl, rfl⟩
      · exact noteMtuProbe_measures.trans sendPmtuProbe_measures

theorem advancePmtu_measures {f : PathMtuProbe → PathMtuProbe} :
    Measures s (s.advancePmtu env f) := by
  unfold advancePmtu
  split
  · exact .refl s
  · dsimp only
    split
    · exact ⟨rfl, rfl, rfl, rfl, rfl⟩
    · exact startPathMtuProbe_measures.after ⟨rfl, rfl, rfl, rfl, rfl⟩

theorem onPathMtuProbeTimeout_measures : Measures s (s.onPathMtuProbeTimeout env) := by
  unfold onPathMtuProbeTimeout
  split
  · exact .refl s
  · exact advancePmtu_measures.after ⟨rfl, rfl, rfl, rfl, rfl⟩

theorem onPathMtuAck_measures : Measures s (s.onPathMtuAck env) := by
  have hack : Measures s (advancePmtu env PathMtuProbe.onProbeAck
      ({ s with pmtuInflight := none, pmtuProbeGen := s.pmtuProbeGen + 1 }.noteMtuOutcome true)) :=
    advancePmtu_measures.after ⟨rfl, rfl, rfl, rfl, rfl⟩
  unfold onPathMtuAck
  generalize advancePmtu env PathMtuProbe.onProbeAck _ = t at hack ⊢
  exact hack.trans ⟨rfl, rfl, rfl, rfl, rfl⟩

theorem beginPathMtu_measures (env : Env) (s : Session) : Measures s (s.beginPathMtu env) := by
  unfold beginPathMtu
  split
  · exact startPathMtuProbe_measures.after ⟨rfl, rfl, rfl, rfl, rfl⟩
  · exact .refl s

/-! ### Application data -/

theorem handOver_holdings {bufs : List Bytes} :
    (bufs.foldl (fun s buf => (s.noteHanded buf).sendOnStrand env buf) s).holdings =
      { s.holdings with mail := { s.mail with handed := bufs.reverse ++ s.handedData } } := by
  induction bufs generalizing s with
  | nil => rfl
  | cons buf bufs ih =>
    have hsend := sendOnStrand_retains env (s.noteHanded buf) buf
    rw [List.foldl_cons, ih]
    generalize (s.noteHanded buf).sendOnStrand env buf = t at hsend ⊢
    have hmail : t.mail = { s.mail with handed := buf :: s.handedData } := hsend.mail
    have hhanded : t.handedData = buf :: s.handedData := congrArg Mail.handed hmail
    rw [hsend, hmail, hhanded, List.reverse_cons, List.append_assoc]
    rfl

theorem flushPendingAppData_holdings (env : Env) (s : Session) :
    (s.flushPendingAppData env).holdings = { s.holdings with
      mail := ⟨[], s.pendingAppData.reverse ++ s.handedData, s.mail.nominations⟩ } :=
  handOver_holdings

/-- A `send` touches the mail only, and nominates nothing. -/
theorem sendPosted_holdings {buf : Bytes} :
    ∃ pending handed, (s.sendPosted env buf).holdings =
      { s.holdings with mail := ⟨pending, handed, s.mail.nominations⟩ } := by
  unfold sendPosted
  split
  · exact ⟨_, s.handedData, rfl⟩
  · exact ⟨s.pendingAppData, buf :: s.handedData, sendOnStrand_retains env (s.noteHanded buf) buf⟩

/-! ### Nominations -/

def announced (env : Env) (origin : NominationOrigin) (ep : Endpoint) (relay : Bool) (cid : Cid)
    (tx : TransportType) (s : Session) : Session :=
  let s := s.commitNomination origin ep relay cid tx
  ((if relay then s.turnBindChannel env ep else s).flushPendingAppData env).emit (.onConnected ep)

theorem onNominated_eq (env : Env) (origin : NominationOrigin) (ep : Endpoint) (relay : Bool)
    (cid : Cid) (tx : TransportType) (s : Session) :
    s.onNominated env origin ep relay cid tx =
      ((s.announced env origin ep relay cid tx).onKeepalive env).beginPathMtu env := rfl

variable {origin : NominationOrigin} {ep : Endpoint} {relay fromTcp : Bool} {cid : Cid}
  {tx : TransportType} {d : Delivery} {k : Task}

theorem commitNomination_holdings :
    (s.commitNomination origin ep relay cid tx).holdings = ⟨⟨s.pendingAppData, s.handedData,
      .nominated origin s.controlling ep relay cid tx :: s.mail.nominations⟩, s.mapper, s.search,
      s.types⟩ := rfl

theorem announced_holdings : (s.announced env origin ep relay cid tx).holdings =
    ⟨⟨[], s.pendingAppData.reverse ++ s.handedData,
      .nominated origin s.controlling ep relay cid tx :: s.mail.nominations⟩, s.mapper,
      s.search, s.types⟩ := by
  have hcommit : (s.commitNomination origin ep relay cid tx).holdings = _ :=
    commitNomination_holdings
  unfold announced
  dsimp only
  generalize s.commitNomination origin ep relay cid tx = u at hcommit ⊢
  have hbind : Retains u (if relay then u.turnBindChannel env ep else u) := by
    split
    exacts [turnBindChannel_retains env u ep, rfl]
  generalize (if relay then u.turnBindChannel env ep else u) = v at hbind ⊢
  have hv : v.holdings = _ := Eq.trans hbind hcommit
  have hpending : v.pendingAppData = s.pendingAppData := congrArg (·.mail.pending) hv
  have hhanded : v.handedData = s.handedData := congrArg (·.mail.handed) hv
  have hflush := flushPendingAppData_holdings env v
  rw [hpending, hhanded, hv, show v.mail.nominations = _ from congrArg (·.mail.nominations) hv]
    at hflush
  exact Eq.trans (emit_retains (v.flushPendingAppData env) (e := .onConnected ep) rfl) hflush

theorem onNominated_mail : (s.onNominated env origin ep relay cid tx).mail =
    ⟨[], s.pendingAppData.reverse ++ s.handedData,
      .nominated origin s.controlling ep relay cid tx :: s.mail.nominations⟩ := by
  rw [onNominated_eq, (beginPathMtu_measures env _).mail, (onKeepalive_roams env _).mail]
  exact congrArg Holdings.mail announced_holdings

theorem onNominated_types : (s.onNominated env origin ep relay cid tx).types = s.types := by
  rw [onNominated_eq, (beginPathMtu_measures env _).types, (onKeepalive_roams env _).types]
  exact congrArg Holdings.types announced_holdings

theorem announced_core : (s.announced env origin ep relay cid tx).core =
    (s.commitNomination origin ep relay cid tx).core := by
  unfold announced
  dsimp only
  generalize s.commitNomination origin ep relay cid tx = u
  have hbind : Quiet u (if relay then u.turnBindChannel env ep else u) := by
    split
    exacts [turnBindChannel_quiet env u ep, .refl u]
  rw [emit_core, (hbind.trans (flushPendingAppData_quiet env _)).core]

theorem announced_route : (s.announced env origin ep relay cid tx).state = .connected ∧
    (cid ≠ 0 → (s.announced env origin ep relay cid tx).nominatedPath = ⟨ep, relay, cid, tx⟩) := by
  have hstate : (s.commitNomination origin ep relay cid tx).state = .connected := rfl
  have hpath : (s.commitNomination origin ep relay cid tx).nominatedPath = ⟨ep, relay, cid, tx⟩ :=
    rfl
  unfold announced
  dsimp only
  generalize s.commitNomination origin ep relay cid tx = u at hstate hpath ⊢
  have hbind : Quiet u (if relay then u.turnBindChannel env ep else u) := by
    split
    exacts [turnBindChannel_quiet env u ep, .refl u]
  have hq := hbind.trans (flushPendingAppData_quiet env _)
  generalize (if relay then u.turnBindChannel env ep else u).flushPendingAppData env = v at hq ⊢
  have hv : v.state = .connected := hq.state.trans hstate
  have hcalm := act_calm (.quiet hq : Act env u none v) (by simp) hv
  refine ⟨hv, fun hcid => (hcalm.2 ?_).trans hpath⟩
  rw [show u.nominatedCid = cid from congrArg NominatedPath.cid hpath]
  exact hcid

/-! ### One step -/

/-- Nothing of the holdings, the state or the path has changed, but perhaps the types. -/
structure Inert (s t : Session) : Prop where
  mail : t.mail = s.mail
  mapper : t.mapper = s.mapper
  search : t.search = s.search
  state : t.state = s.state
  path : t.nominatedPath = s.nominatedPath

namespace Inert

theorem refl (s : Session) : Inert s s := ⟨rfl, rfl, rfl, rfl, rfl⟩

theorem trans (hst : Inert s t) (htu : Inert t u) : Inert s u :=
  ⟨htu.mail.trans hst.mail, htu.mapper.trans hst.mapper, htu.search.trans hst.search,
    htu.state.trans hst.state, htu.path.trans hst.path⟩

theorem of_retains (h : Retains s t) (hs : t.state = s.state)
    (hp : t.nominatedPath = s.nominatedPath) : Inert s t :=
  ⟨h.mail, h.mapper, h.search, hs, hp⟩

end Inert

instance (s : Session) (m : StunMessage) : Decidable (s.answersCheck m) :=
  inferInstanceAs (Decidable (_ ∧ _ ∧ _))

def answered (m : StunMessage) (s : Session) : Option CheckPair :=
  if s.answersCheck m then (s.pairOf m.txnId).map (·.2) else none

def learned (m : StunMessage) (s : Session) : Session :=
  (s.answered m).elim s fun p => s.noteCandidateTypes p

theorem learned_of_unanswered (h : ¬ s.answersCheck m) : s.learned m = s := by
  unfold learned answered
  rw [if_neg h]
  rfl

theorem learned_inert : Inert s (s.learned m) := by
  unfold learned
  cases s.answered m <;> exact ⟨rfl, rfl, rfl, rfl, rfl⟩

/-- What a step other than a `send` does to the holdings. -/
inductive Passage (env : Env) (s t : Session) : Prop
  | kept (h : Retains s t)
  | acked (hin : s.pmtuInflight.isSome = true) (ht : t = s.onPathMtuAck env)
  | expired (gen : ℕ) (hq : .pmtuTimeout gen ∈ s.queue) (hgen : s.pmtuProbeGen = gen)
      (ht : t = (s.dequeue (.pmtuTimeout gen)).onPathMtuProbeTimeout env)
  | stale (gen : ℕ) (hgen : s.pmtuProbeGen ≠ gen) (ht : t = s.dequeue (.pmtuTimeout gen))
  | gathered (u : Session) (hu : Retains s u) (ht : Retains (u.gatherPortmap env) t)
  | closed (u : Session) (hu : Retains s u) (ht : Retains u.releasePortmapMapping t)
  | nominated (v : Session) (origin : NominationOrigin) (ep : Endpoint) (relay : Bool) (cid : Cid)
      (tx : TransportType) (hv : Retains s v)
      (ht : Retains (v.onNominated env origin ep relay cid tx) t)
      (hc : Calm (v.onNominated env origin ep relay cid tx) t)

theorem Passage.mail_or_nominated (h : Passage env s t) : t.mail = s.mail ∨
    ∃ (v : Session) (origin : NominationOrigin) (ep : Endpoint) (relay : Bool) (cid : Cid)
      (tx : TransportType), Retains s v ∧ Retains (v.onNominated env origin ep relay cid tx) t ∧
        Calm (v.onNominated env origin ep relay cid tx) t := by
  cases h with
  | kept h => exact .inl h.mail
  | acked _ ht => exact .inl (ht ▸ (onPathMtuAck_measures).mail)
  | expired gen _ _ ht =>
    have hdeq : (s.dequeue (.pmtuTimeout gen)).mail = s.mail := rfl
    exact .inl (ht ▸ (onPathMtuProbeTimeout_measures).mail.trans hdeq)
  | stale gen _ ht => exact .inl (ht ▸ rfl)
  | gathered u hu ht => exact .inl (by rw [ht.mail, (gatherPortmap_keeps).1, hu.mail])
  | closed u hu ht => exact .inl (by rw [ht.mail, releasePortmapMapping_mail, hu.mail])
  | nominated v origin ep relay cid tx hv ht hc =>
    exact .inr ⟨v, origin, ep, relay, cid, tx, hv, ht, hc⟩

theorem Passage.types (h : Passage env s t) : t.types = s.types := by
  cases h with
  | kept h => exact h.types
  | acked _ ht => exact ht ▸ (onPathMtuAck_measures).types
  | expired gen _ _ ht => exact ht ▸ (onPathMtuProbeTimeout_measures).types
  | stale gen _ ht => exact ht ▸ rfl
  | gathered u hu ht => rw [ht.types, (gatherPortmap_keeps).2.2, hu.types]
  | closed u hu ht => rw [ht.types, releasePortmapMapping_types, hu.types]
  | nominated v origin ep relay cid tx hv ht hc => rw [ht.types, onNominated_types, hv.types]

theorem Roams.passage (h : Roams env s t) : Passage env s t := by
  rcases h with h | ⟨u, hu, h⟩
  exacts [.kept h, .gathered u hu h]

theorem Passage.of_nominated (h : Retains s t) :
    Passage env s (t.onNominated env origin ep relay cid tx) :=
  .nominated t origin ep relay cid tx h (.refl _) (.refl _)

theorem onPairSucceeded_passage {i : ℕ} {p : CheckPair} (h : Retains s t) :
    Passage env s (t.onPairSucceeded env i p) := by
  unfold onPairSucceeded
  split_ifs
  · unfold nominateDeferred
    have hmark : Retains t (t.modifyPair i fun p => { p with pendingNomination := false }) := rfl
    exact .of_nominated (hmark.after h)
  · exact .kept h
  · unfold nominatePair
    exact .of_nominated ((nomineeCid_retains env t p).after h)
  · exact .kept ((pickNominee_retains env t).after h)
  · exact .kept h

theorem handleCheckResponse_passage (h : s.answersCheck m) :
    Passage env (s.learned m) (s.handleCheckResponse env m) := by
  unfold handleCheckResponse learned answered
  rw [if_pos h, if_neg (not_not_intro h.2.2)]
  cases s.pairOf m.txnId with
  | none => exact .kept rfl
  | some r => exact onPairSucceeded_passage (recordSuccess_retains env s)

theorem maybeTriggerCheckFromPeer_calm (env : Env) (ep : Endpoint) (s : Session) :
    Calm s (s.maybeTriggerCheckFromPeer env ep) := by
  refine Calm.of_steps (A := { l | l.rewritesRoute = false })
    (maybeTriggerCheckFromPeer_steps _ ?_) fun l hl => hl
  intro stale strays full _ _ _
  rfl

theorem acceptRequest_passage (h : Retains s t) :
    Passage env s (t.acceptRequest env m cid fromTcp) := by
  unfold acceptRequest
  extract_lets ep u v
  have hu : Retains s u := (answerRequest_retains t m cid fromTcp).after h
  clear_value u ep
  dsimp only [v]
  split
  · unfold onUseCandidate
    dsimp only
    split
    · refine .kept ((maybeTriggerCheckFromPeer_retains env _).after ?_)
      exact (runNextCheck_retains env _).after (Retains.after rfl hu)
    · split
      · exact .nominated u _ _ _ _ _ hu (maybeTriggerCheckFromPeer_retains env _)
          (maybeTriggerCheckFromPeer_calm env ep _)
      · refine .kept ((maybeTriggerCheckFromPeer_retains env _).after ?_)
        exact (runNextCheck_retains env _).after (Retains.after rfl hu)
  · exact .kept ((maybeTriggerCheckFromPeer_retains env u).after hu)

theorem handleBindingRequest_passage :
    Passage env s (s.handleBindingRequest env m cid fromTcp) := by
  unfold handleBindingRequest
  split
  · have hrole := handleRoleConflict_retains env s m.iceControlling.isSome (senderTiebreaker m)
    dsimp only
    split
    · exact acceptRequest_passage hrole
    · exact .kept ((reply_retains _).after hrole)
  · exact acceptRequest_passage rfl

theorem onStun_passage : Passage env (s.learned m) (s.onStun env m cid fromTcp) := by
  by_cases hcheck : s.answersCheck m
  · have hresponse : s.onStun env m cid fromTcp = s.handleCheckResponse env m := by
      obtain ⟨htype, hprobe, hstate⟩ := hcheck
      simp [onStun, handleSuccessResponse, htype, hprobe, hstate, bindingResponse, bindingError]
    rw [hresponse]
    exact handleCheckResponse_passage hcheck
  · rw [learned_of_unanswered hcheck]
    unfold onStun
    split
    · exact .kept (handleErrorResponse_retains env s)
    · split
      next htype =>
        unfold handleSuccessResponse
        split_ifs with hin hconn
        · exact .acked (by simp [hin]) rfl
        · exact .kept rfl
        · have hstate : s.state ≠ .checking := fun hs => hcheck ⟨htype, hin, hs⟩
          rw [handleCheckResponse, if_pos hstate]
          exact .kept rfl
      next =>
        split
        · exact handleBindingRequest_passage
        · exact .kept rfl

/-- The receiver of the bytes, once it has noted the types of the pair that they answer. -/
def taught (H : Hmac) (env : Env) (d : Delivery) : Session :=
  (d.accepted H env).elim d.session fun m => d.session.learned m

theorem taught_inert : Inert d.session (taught H env d) := by
  unfold taught
  cases d.accepted H env with
  | none => exact .refl _
  | some m => exact learned_inert

theorem onCarrierData_passage :
    Passage env (taught H env d) (d.session.onCarrierData H env d.cid d.fromTcp d.data) := by
  unfold onCarrierData taught Delivery.accepted Delivery.isTurn
  cases hturn : isTurnServer d.session.turn d.cid with
  | true => exact .kept (turnOnInbound_retains env d.session)
  | false =>
    cases hbackup : isTurnServer d.session.turnBackupProbe d.cid with
    | true => exact .kept (turnBackupOnInbound_retains env d.session)
    | false =>
      cases parseStun env.net d.data with
      | none => exact .kept (onAppData_retains d.session)
      | some m =>
        cases hgather : d.session.isGatherResponse m with
        | true =>
          simp only [Option.filter, hgather]
          exact .kept (handleGatherResponse_retains env d.session)
        | false =>
          cases hauth : d.session.authenticated H m d.data with
          | true =>
            simp only [Option.filter, hgather, hauth]
            exact onStun_passage
          | false =>
            simp only [Option.filter, hgather, hauth]
            exact .kept rfl

theorem closeTeardown_retains :
    ∃ u, Retains s u ∧ Retains u.releasePortmapMapping (s.closeTeardown env) := by
  have hclose : Retains s
      ((s.cancelTimers.turnClose env).turnBackupProbeClose env).unregisterMdns :=
    (unregisterMdns_retains _).after ((turnBackupProbeClose_retains env _).after
      ((turnClose_retains env _).after rfl))
  refine ⟨_, hclose, ?_⟩
  unfold closeTeardown
  dsimp only
  generalize ((s.cancelTimers.turnClose env).turnBackupProbeClose env).unregisterMdns = u
  generalize u.releasePortmapMapping = v
  rfl

theorem closeTeardown_passage : Passage env s (s.closeTeardown env) := by
  obtain ⟨u, hu, hclosed⟩ := closeTeardown_retains
  exact .closed u hu hclosed

theorem inbound_inert (h : d ∈ s.inbound e) : Inert s d.session ∧ d.session.types = s.types := by
  unfold inbound at h
  split at h
  · obtain rfl := some.inj h
    exact ⟨.refl s, rfl⟩
  · obtain ⟨r, -, rfl⟩ := map_eq_some_iff.mp h
    exact ⟨⟨rfl, rfl, rfl, rfl, rfl⟩, rfl⟩
  · rename_i ep bytes
    split_ifs at h with hq
    · obtain rfl := some.inj h
      have hrest := (relayCidForEndpoint_retains (s.dequeue (.relayStun ep bytes)) ep).after
        (dequeue_retains s rfl)
      refine ⟨.of_retains hrest ?_ ?_, hrest.types⟩
      · exact (relayCidForEndpoint_quiet _ _).state
      · unfold relayCidForEndpoint
        split <;> rfl
    · cases h
  · cases h

/-- A task that is not a timer of the search and brings no message. -/
theorem runTask_passage (hk : k.isMtuTimer = false)
    (hr : ∀ ep bytes, k ≠ .relayStun ep bytes) : Passage env s (s.runTask H env k) := by
  have guarded {p : Prop} [Decidable p] {t : Session} (h : Passage env s t) :
      Passage env s (if p then t else s) := by
    split_ifs
    exacts [h, .kept rfl]
  cases k with
  | stunProbes => exact .kept (stunProbes_retains env s)
  | turnAttempt => exact .kept (tryNextTurnAttempt_retains env s)
  | turnAllocated c => exact .kept (onTurnAllocated_retains env s)
  | backupAllocated cfg => exact .kept (onBackupAllocated_retains env s)
  | relayStun ep bytes => exact absurd rfl (hr ep bytes)
  | closeTeardown => exact closeTeardown_passage
  | gatherTimeout gen => exact guarded (.kept (onGatherTimeout_retains env s))
  | gatherFallback gen => exact guarded (.kept (onGatheringComplete_retains env s))
  | turnAllocateTimeout gen => exact guarded (.kept (onTurnAllocateTimeout_retains env s))
  | turnBackupTick gen => exact guarded (.kept (onTurnBackupTick_retains env s))
  | checkTick gen => exact guarded (.kept (runNextCheck_retains env s))
  | nominationWait gen => exact guarded (.kept (onNominationWaitExpired_retains s))
  | keepalive gen => exact guarded (onKeepalive_roams env s).passage
  | pmtuTimeout gen => cases hk
  | tcpConnectTimeout cid => exact .kept (onTcpConnectTimeout_retains env s)
  | mdnsResolve idx hostname => exact .kept rfl

theorem task_passage (hq : k ∈ s.queue) (hr : ∀ ep bytes, k ≠ .relayStun ep bytes) :
    ∃ u, Inert s u ∧ u.types = s.types ∧ Passage env u ((s.dequeue k).runTask H env k) := by
  cases hk : k.isMtuTimer with
  | false =>
    have hdeq : Retains s (s.dequeue k) := dequeue_retains s hk
    exact ⟨s.dequeue k, .of_retains hdeq rfl rfl, hdeq.types, runTask_passage hk hr⟩
  | true =>
    cases k with
    | pmtuTimeout gen =>
      refine ⟨s, .refl s, rfl, ?_⟩
      simp only [runTask]
      split_ifs with hgen
      · exact .expired gen hq hgen rfl
      · exact .stale gen hgen rfl
    | _ => cases hk

/-- What the session reports as the types of the nominated pair after the event. -/
def reported (H : Hmac) (env : Env) (s : Session) (e : Event) : CandidateType × CandidateType :=
  (s.inbound e).elim s.types fun d => (taught H env d).types

theorem step_passage (he : ∀ buf, e ≠ .send buf) :
    ∃ u, Inert s u ∧ u.types = s.reported H env e ∧ Passage env u (s.step H env e) := by
  cases hin : s.inbound e with
  | some d =>
    refine ⟨taught H env d, (inbound_inert hin).1.trans taught_inert, ?_, ?_⟩
    · rw [reported, hin]
      rfl
    · rw [(step_inbound H env hin).2]
      exact onCarrierData_passage
  | none =>
    rw [reported, hin]
    have stays {t : Session} (h : Passage env s t) :
        ∃ u, Inert s u ∧ u.types = s.types ∧ Passage env u t := ⟨s, .refl s, rfl, h⟩
    cases e with
    | gather => exact stays gather_roams.passage
    | addRemoteCandidates ufrag pwd cands eoc =>
      exact stays (.kept (addRemoteCandidates_retains env s))
    | setRemote ufrag pwd cands => exact stays (.kept (setRemote_retains env s))
    | setPeerSignalFlags symmetric =>
      exact stays (.kept (setPeerSignalFlags_retains env s))
    | restart => exact stays restart_roams.passage
    | close => exact stays (.kept rfl)
    | send buf => exact absurd rfl (he buf)
    | udpData cid bytes => cases hin
    | tcpBytes cid bytes => exact stays (.kept rfl)
    | tcpFrame cid =>
      have hframe := map_eq_none_iff.mp hin
      simp only [step, tcpFrame, hframe]
      exact stays (.kept rfl)
    | turnStream backup bytes => exact stays (.kept (turnStream_retains env s))
    | mdnsResolved idx hostname r =>
      simp only [step]
      split_ifs
      · refine stays (.kept ((onMdnsResolved_retains env _).after ?_))
        exact dequeue_retains s rfl
      · exact stays (.kept rfl)
    | task k =>
      simp only [step]
      split_ifs with hq
      · refine task_passage hq fun ep bytes hk => ?_
        subst hk
        simp only [inbound, if_pos hq] at hin
        cases hin
      · exact stays (.kept rfl)

end Session

end LinkIce
