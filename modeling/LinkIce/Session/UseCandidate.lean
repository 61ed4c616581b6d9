import LinkIce.Session.Script

/-! What USE-CANDIDATE does at a controlled session: whether it always leads to a check of the
path it names. -/
namespace LinkIce
open Stun List

namespace CheckPair

variable {p : CheckPair}

/-- The pair of this path is about to be checked, or is, and nominated when the check succeeds. -/
def pursues (net : Inet) (ep : Endpoint) (tx : TransportType) (p : CheckPair) : Bool :=
  decide (p.endpoint net = ep ∧ p.transportType = tx) && p.pendingNomination &&
    decide (p.state = .waiting ∨ p.state = .inProgress)

theorem pursues_iff {net : Inet} {ep : Endpoint} {tx : TransportType} :
    p.pursues net ep tx = true ↔ p.endpoint net = ep ∧ p.transportType = tx ∧
      p.pendingNomination = true ∧ (p.state = .waiting ∨ p.state = .inProgress) := by
  simp [pursues, and_assoc]

theorem Evolves.endpoint {p q : CheckPair} (h : Evolves p q) (net : Inet) :
    q.endpoint net = p.endpoint net := by
  rw [CheckPair.endpoint, CheckPair.endpoint, h.rem]

def Released (p : CheckPair) : Prop := p.pendingNomination = true → p.state ≠ .frozen

end CheckPair

namespace Session

variable {H : Hmac} {env : Env} {s t : Session} {ep : Endpoint} {fromTcp relay : Bool}
  {m : StunMessage} {p : CheckPair} {tx : TransportType} {cid : Cid}

theorem released_pairInvariant (env : Env) : PairInvariant env CheckPair.Released where
  fresh hf _ hp := by simp [hf.pendingNomination] at hp
  evolves he h hp := by
    rcases he.state with hs | hs
    · rw [hs]
      exact h (he.pendingNomination ▸ hp)
    · exact hs.1
  flag h hp := h hp
  succeed _ _ := nofun
  mark _ _ := by
    dsimp only
    split_ifs with hf
    exacts [nofun, hf]
  clear _ := nofun
  trigger _ _ _ _ := nofun

/-- The session is connected on the path, or it is still checking it to nominate it. -/
def pursuesNomination (env : Env) (ep : Endpoint) (tx : TransportType) (relay : Bool)
    (s : Session) : Bool :=
  decide (s.state = .connected ∧ s.nominatedEp = ep ∧ s.nominatedTransport = tx ∧
      s.usesRelay = relay) ||
    (decide (s.state = .checking) && s.checkList.any (·.pursues env.net ep tx))

/-- The scheduler finds something to do, or a controlled session something to wait for. -/
def carriesOn (env : Env) (s : Session) : Bool :=
  s.underway env || s.mayWait

/-- The path of a USE-CANDIDATE request can be checked: its first pair has succeeded, or is
marked in time, or a triggered check finds the session still running and takes the path. -/
def pursuable (env : Env) (ep : Endpoint) (fromTcp : Bool) (s : Session) : Bool :=
  match s.nominationPair env ep (nominationTransport fromTcp) with
  | some i =>
    if s.checkList[i]?.any (·.state = .succeeded) then decide (1 < s.cfg.consentMaxFailures)
    else (s.markPendingNomination i).checkList.any fun p =>
      p.pursues env.net ep (nominationTransport fromTcp) && !s.timedOut (env.clock s.draws) p
  | none =>
    !fromTcp && (s.checkList.all fun p => p.endpoint env.net ≠ ep) &&
      decide ((triggeredRemote env.net ep).addressStr env.net = ep.ip) &&
      decide (0 < s.retryLimit) && s.carriesOn env

/-- When a request with USE-CANDIDATE leads to a check of its path. A role conflict must leave
the list as it is, and the path pursued already. -/
def leadsToCheck (env : Env) (m : StunMessage) (cid : Cid) (fromTcp : Bool) (s : Session) : Prop :=
  if s.sameRole m then
    ¬ (s.givesWay m ∧ s.flipRebuilds) ∧ s.checkList.any
      (·.pursues env.net (s.endpointOf fromTcp cid) (nominationTransport fromTcp)) = true
  else s.pursuable env (s.endpointOf fromTcp cid) fromTcp = true

/-! ### One run of the scheduler -/

theorem runNextCheck_state (hs : s.state = .checking) :
    (s.runNextCheck env).state = if s.carriesOn env then .checking else .failed := by
  have hst : (s.checkPasses env).2.state = .checking := (checkPasses_scheduled env s).state.trans hs
  have hwait : (s.checkPasses env).2.mayWait = s.mayWait :=
    mayWait_scheduled (checkPasses_scheduled env s)
  rw [runNextCheck, if_neg (not_not.mpr hs), carriesOn, ← checkPasses_fst, ← hwait]
  dsimp only
  cases (s.checkPasses env).1 with
  | true =>
    rw [if_pos rfl, Bool.true_or, if_pos rfl]
    exact (armCheckTimer_quiet _).state.trans hst
  | false =>
    rw [if_neg Bool.false_ne_true, Bool.false_or]
    generalize (s.checkPasses env).2 = t at hst ⊢
    unfold checksExhausted
    rw [if_neg (by simp [hst])]
    change (if t.mayWait = true then _ else _ : Session).state = _
    split_ifs
    · unfold armNominationWait
      dsimp only
      split_ifs <;> exact hst
    · rfl

private theorem runNextCheck_checkList (hs : s.state = .checking) :
    (s.runNextCheck env).checkList = (s.checkPasses env).2.checkList := by
  rw [runNextCheck, if_neg (not_not.mpr hs)]
  dsimp only
  split_ifs
  · exact (armCheckTimer_quiet _).checkList
  · exact congrArg Core.checkList (checksExhausted_core _)

/-- Which pairs are still pursued after a tick. -/
theorem runNextCheck_pursues (hs : s.state = .checking) (hr : ∀ p ∈ s.checkList, p.Released) :
    (s.runNextCheck env).checkList.any (·.pursues env.net ep tx) = true ↔
      ∃ p ∈ s.checkList, p.pursues env.net ep tx = true ∧
        s.timedOut (env.clock s.draws) p = false := by
  have hev := runNextCheck_evolves env s
  rw [runNextCheck_checkList hs] at hev ⊢
  rw [any_eq_true]
  constructor
  · rintro ⟨q, hq, hpur⟩
    obtain ⟨j, hj⟩ := mem_iff_getElem?.mp hq
    obtain ⟨p, hp, he⟩ := exists_left_of_getElem? hev hj
    obtain ⟨q', hq', hadv⟩ := checkPasses_at hp
    obtain rfl := Option.some.inj (hj.symm.trans hq')
    refine ⟨p, mem_of_getElem? hp, ?_⟩
    rw [CheckPair.pursues_iff, he.endpoint, he.transportType, he.pendingNomination] at hpur
    obtain ⟨hep, htx, hn, hst⟩ := hpur
    split_ifs at hadv with hl
    · simp [hadv] at hst
    · refine ⟨CheckPair.pursues_iff.mpr ⟨hep, htx, hn, ?_⟩, by simpa using hl⟩
      have hfrozen := hr p (mem_of_getElem? hp) hn
      rcases hadv with h | ⟨h, -⟩ | ⟨h, -⟩
      · rwa [h] at hst
      · exact absurd h hfrozen
      · exact .inl h
  · rintro ⟨p, hp, hpur, hl⟩
    obtain ⟨j, hj⟩ := mem_iff_getElem?.mp hp
    obtain ⟨q, hq, hadv⟩ := checkPasses_at hj
    obtain ⟨p', hp', he⟩ := exists_left_of_getElem? hev hq
    obtain rfl := Option.some.inj (hj.symm.trans hp')
    refine ⟨q, mem_of_getElem? hq, ?_⟩
    rw [hl, if_neg Bool.false_ne_true] at hadv
    obtain ⟨hep, htx, hn, hst⟩ := CheckPair.pursues_iff.mp hpur
    rw [CheckPair.pursues_iff, he.endpoint, he.transportType, he.pendingNomination]
    refine ⟨hep, htx, hn, ?_⟩
    rcases hadv with h | ⟨h, -⟩ | ⟨-, h⟩
    · rwa [h]
    · simp [h] at hst
    · exact .inr h

theorem carriesOn_of_pursues (hp : p ∈ s.checkList) (hpur : p.pursues env.net ep tx = true)
    (hl : s.timedOut (env.clock s.draws) p = false) : s.carriesOn env = true := by
  have hpend : p.isPending = true := by
    rcases (CheckPair.pursues_iff.mp hpur).2.2.2 with h | h <;> simp [CheckPair.isPending, h]
  rw [carriesOn, underway, Bool.or_eq_true, any_eq_true]
  exact .inl ⟨p, hp, by simp [hpend, hl]⟩

theorem runNextCheck_pursuesNomination (hs : s.state = .checking)
    (hr : ∀ p ∈ s.checkList, p.Released) :
    (s.runNextCheck env).pursuesNomination env ep tx relay = true ↔
      ∃ p ∈ s.checkList, p.pursues env.net ep tx = true ∧
        s.timedOut (env.clock s.draws) p = false := by
  rw [pursuesNomination, Bool.or_eq_true, Bool.and_eq_true, decide_eq_true_eq, decide_eq_true_eq,
    runNextCheck_pursues hs hr, runNextCheck_state hs]
  constructor
  · rintro (⟨h, -⟩ | ⟨-, h⟩)
    · split_ifs at h
    · exact h
  · rintro ⟨p, hp, hpur, hl⟩
    exact .inr ⟨if_pos (carriesOn_of_pursues hp hpur hl), p, hp, hpur, hl⟩

/-! ### Triggered checks -/

theorem maybeTriggerCheckFromPeer_new (hep : ep.ip ≠ [])
    (hlite : s.cfg.liteMode = false) (hnew : ∀ p ∈ s.checkList, p.endpoint env.net ≠ ep)
    (hl : ∃ l ∈ s.localCandidates, l.family = (triggeredRemote env.net ep).family) :
    ∃ l, s.maybeTriggerCheckFromPeer env ep =
      s.pushTriggered env (s.triggeredPair env l (triggeredRemote env.net ep)) := by
  obtain ⟨l, hmem, hfam⟩ := hl
  have hlocal : s.localCandidates ≠ [] := ne_nil_of_mem hmem
  have hany : s.checkList.any (fun p => decide (p.endpoint env.net = ep)) = false := by
    simpa using hnew
  unfold maybeTriggerCheckFromPeer
  rw [if_neg (by simp [hep, hlocal, hlite]), if_neg (by simp [hany])]
  dsimp only
  cases hf : s.localCandidates.find? fun l => l.family = (triggeredRemote env.net ep).family with
  | none => simpa [hfam] using List.find?_eq_none.mp hf l hmem
  | some l' => exact ⟨l', rfl⟩

theorem triggeredPair_pursues {rem : Candidate} (hep : ep.ip ≠ []) (hslot : s.pendingNomEp = ep)
    (hport : rem.port = ep.port) {l : Candidate} :
    (s.triggeredPair env l rem).pursues env.net ep tx = true ↔
      rem.addressStr env.net = ep.ip ∧ tx = .udp ∧ s.controlling = false := by
  have hend : (s.triggeredPair env l rem).endpoint env.net = ep ↔
      rem.addressStr env.net = ep.ip := by
    cases ep
    simp_all [CheckPair.endpoint, triggeredPair]
  have hmark : (s.triggeredPair env l rem).pendingNomination =
      (!s.controlling && decide ((s.triggeredPair env l rem).endpoint env.net = ep)) := by
    rw [← hslot] at hep ⊢
    simp [triggeredPair, CheckPair.endpoint, hep]
  rw [CheckPair.pursues_iff, hmark, Bool.and_eq_true, Bool.not_eq_true', decide_eq_true_eq, hend]
  constructor
  · rintro ⟨ha, ht, ⟨hc, -⟩, -⟩
    exact ⟨ha, ht.symm, hc⟩
  · rintro ⟨ha, ht, hc⟩
    exact ⟨ha, ht.symm, ⟨hc, ha⟩, .inr rfl⟩

/-- What the check of a triggered pair leaves of the list. -/
theorem pushTriggered_pursues (hs : s.state = .checking)
    (hnew : ∀ p ∈ s.checkList, p.endpoint env.net ≠ ep) (hp : p.state = .inProgress)
    (hr : p.retries = 0) :
    (s.pushTriggered env p).checkList.any (·.pursues env.net ep tx) = true ↔
      0 < s.retryLimit ∧ p.pursues env.net ep tx = true := by
  have hlast : (s.checkList ++ [p])[s.checkList.length]? = some p := by simp
  rw [pushTriggered]
  dsimp only
  rw [if_pos (.inl hs), any_eq_true]
  have hlen : (s.checkList ++ [p]).length - 1 = s.checkList.length := by simp
  rw [hlen]
  generalize hu : ({ s.drawn with checkList := s.checkList ++ [p] } : Session) = u
  have hul : u.checkList[s.checkList.length]? = some p := by rw [← hu]; exact hlast
  have hlim : u.retryLimit = s.retryLimit := by rw [← hu]; rfl
  constructor
  · rintro ⟨q, hq, hpur⟩
    obtain ⟨j, hj⟩ := mem_iff_getElem?.mp hq
    obtain ⟨r, hrj, he⟩ := exists_left_of_getElem?
      (sendCheck_scheduled env u s.checkList.length).checkList hj
    rw [CheckPair.pursues_iff, he.endpoint, he.transportType, he.pendingNomination] at hpur
    obtain ⟨hep, htx, hn, hst⟩ := hpur
    have hjl : j = s.checkList.length := by
      by_contra hne
      have hjlt : j < s.checkList.length := by
        have := (List.getElem?_eq_some_iff.mp hrj).1
        rw [← hu] at this
        simp at this
        omega
      rw [← hu] at hrj
      rw [List.getElem?_append_left hjlt] at hrj
      exact hnew r (mem_of_getElem? hrj) hep
    subst hjl
    obtain rfl := Option.some.inj (hul.symm.trans hrj)
    refine ⟨?_, CheckPair.pursues_iff.mpr ⟨hep, htx, hn, .inr hp⟩⟩
    by_contra hz
    have hfail : u.sendCheck env s.checkList.length = u.failPair s.checkList.length := by
      rw [sendCheck, hul]
      dsimp only
      rw [if_pos (by omega)]
    rw [hfail, failPair_at_self hul] at hj
    obtain rfl := Option.some.inj hj
    simp at hst
  · rintro ⟨hpos, hpur⟩
    refine ⟨{ p with retries := p.retries + 1, txnSendUs := env.clock u.draws },
      mem_of_getElem? (i := s.checkList.length) ?_, hpur⟩
    rw [sendCheck_checkList hul (by omega)]
    simp [hul]

theorem pushTriggered_state : (s.pushTriggered env p).state = s.state := by
  unfold pushTriggered
  dsimp only
  split_ifs
  exacts [(sendCheck_scheduled env _ _).state, rfl]

/-! ### The request -/

theorem reply_draws {b : StunBuilder} : (s.reply fromTcp cid ep b).draws = s.draws := by
  rcases reply_eq with h | ⟨e, -, h⟩
  all_goals rw [h]
  rfl

theorem pursuable_congr (hc : t.core = s.core) (hd : t.draws = s.draws) (ep : Endpoint)
    (fromTcp : Bool) : t.pursuable env ep fromTcp = s.pursuable env ep fromTcp := by
  have hlist : t.checkList = s.checkList := congrArg Core.checkList hc
  have hcfg : t.cfg = s.cfg := congrArg Core.cfg hc
  have hctl : t.controlling = s.controlling := congrArg Core.controlling hc
  have harmed : t.nominationWaitArmed = s.nominationWaitArmed :=
    congrArg Core.nominationWaitArmed hc
  unfold pursuable nominationPair markPendingNomination modifyPair carriesOn underway mayWait
    timedOut retryLimit baseRto
  rw [hlist, hcfg, hctl, harmed, hd]

theorem onNominated_pursues {origin : NominationOrigin} (h : ¬ s.losesConsentAtOnce) :
    (s.onNominated env origin ep relay cid tx).pursuesNomination env ep tx relay = true := by
  obtain ⟨n, hn⟩ := onNominated_core h
  have hst : (s.onNominated env origin ep relay cid tx).state = .connected :=
    congrArg Core.state hn
  have he : (s.onNominated env origin ep relay cid tx).nominatedEp = ep :=
    congrArg Core.nominatedEp hn
  have ht : (s.onNominated env origin ep relay cid tx).nominatedTransport = tx :=
    congrArg Core.nominatedTransport hn
  have hr : (s.onNominated env origin ep relay cid tx).usesRelay = relay :=
    congrArg Core.usesRelay hn
  simp [pursuesNomination, hst, he, ht, hr]

/-- No pair of the path is in the list: the scheduler runs before the triggered check. -/
theorem stashNomination_pursued (hs : s.state = .checking) (hc : s.controlling = false)
    (hlite : s.cfg.liteMode = false) (hr : ∀ p ∈ s.checkList, p.Released) (hep : ep.ip ≠ [])
    (hl : ∃ l ∈ s.localCandidates, l.family = (triggeredRemote env.net ep).family)
    (hi : s.nominationPair env ep (nominationTransport fromTcp) = none) :
    (((s.stashNomination ep relay cid (nominationTransport fromTcp)).runNextCheck
        env).maybeTriggerCheckFromPeer env ep).pursuesNomination env ep
          (nominationTransport fromTcp) relay = true ↔
      fromTcp = false ∧ (∀ p ∈ s.checkList, p.endpoint env.net ≠ ep) ∧
        (triggeredRemote env.net ep).addressStr env.net = ep.ip ∧ 0 < s.retryLimit ∧
        s.carriesOn env = true := by
  generalize hu : s.stashNomination ep relay cid (nominationTransport fromTcp) = u
  have hus : u.state = .checking := by rw [← hu]; exact hs
  have hul : u.checkList = s.checkList := by rw [← hu]; rfl
  have hcarry : u.carriesOn env = s.carriesOn env := by rw [← hu]; rfl
  have hlim : u.retryLimit = s.retryLimit := by rw [← hu]; rfl
  have hcore := runNextCheck_core env u
  have hev := runNextCheck_evolves env u
  rw [hul] at hev
  by_cases hnew : ∀ p ∈ s.checkList, p.endpoint env.net ≠ ep
  · have hnew' : ∀ q ∈ (u.runNextCheck env).checkList, q.endpoint env.net ≠ ep := by
      intro q hq
      obtain ⟨p, hp, he⟩ := exists_left_of_mem hev hq
      rw [he.endpoint]
      exact hnew p hp
    have hcfg : (u.runNextCheck env).cfg = s.cfg :=
      (congrArg Core.cfg hcore).trans (by rw [← hu]; rfl)
    have hctl : (u.runNextCheck env).controlling = false :=
      (congrArg Core.controlling hcore).trans (by rw [← hu]; exact hc)
    have hslot : (u.runNextCheck env).pendingNomEp = ep :=
      (congrArg Core.pendingNomEp hcore).trans (by rw [← hu]; rfl)
    have hloc : (u.runNextCheck env).localCandidates = s.localCandidates :=
      (congrArg Core.localCandidates hcore).trans (by rw [← hu]; rfl)
    obtain ⟨l, hpush⟩ := maybeTriggerCheckFromPeer_new (s := u.runNextCheck env) hep
      (by rw [hcfg, hlite]) hnew' (hloc ▸ hl)
    have hlim : (u.runNextCheck env).retryLimit = s.retryLimit := by
      rw [retryLimit, retryLimit, hcfg]
    have hstate : (u.runNextCheck env).state = if s.carriesOn env then .checking else .failed := by
      rw [runNextCheck_state hus, hcarry]
    rw [hpush, pursuesNomination, Bool.or_eq_true, Bool.and_eq_true, decide_eq_true_eq,
      decide_eq_true_eq, pushTriggered_state]
    by_cases hgo : s.carriesOn env = true
    · rw [if_pos hgo] at hstate
      rw [pushTriggered_pursues hstate hnew' rfl rfl, triggeredPair_pursues hep hslot rfl, hlim,
        hstate, hctl]
      cases fromTcp with
      | true => simp [nominationTransport]
      | false =>
        constructor
        · rintro (⟨h, -⟩ | ⟨-, hpos, ha, -⟩)
          · cases h
          · exact ⟨rfl, hnew, ha, hpos, hgo⟩
        · rintro ⟨-, -, ha, hpos, -⟩
          exact .inr ⟨rfl, hpos, ha, rfl, rfl⟩
    · rw [if_neg hgo] at hstate
      simp [hstate, hgo]
  · have hknown := hnew
    simp only [not_forall, not_not] at hknown
    obtain ⟨p, hp, hpe⟩ := hknown
    obtain ⟨q, hq, he⟩ := exists_right_of_mem hev hp
    rw [maybeTriggerCheckFromPeer_known env hq ((he.endpoint env.net).trans hpe),
      runNextCheck_pursuesNomination hus (hul ▸ hr), hul]
    constructor
    · rintro ⟨r, hr, hpur, -⟩
      have hne := List.findIdx?_eq_none_iff.mp hi r hr
      obtain ⟨h₁, h₂, -⟩ := CheckPair.pursues_iff.mp hpur
      simp [h₁, h₂] at hne
    · exact fun h => absurd h.2.1 hnew

theorem onUseCandidate_pursued (cid : Cid)
    (hs : s.state = .checking) (hc : s.controlling = false) (hlite : s.cfg.liteMode = false)
    (hr : ∀ p ∈ s.checkList, p.Released) (hep : ep.ip ≠ [])
    (hl : ∃ l ∈ s.localCandidates, l.family = (triggeredRemote env.net ep).family)
    (hmax : 1 < s.cfg.consentMaxFailures ∨ s.pursuable env ep fromTcp = true) :
    ((s.onUseCandidate env ep cid fromTcp).maybeTriggerCheckFromPeer env ep).pursuesNomination env
        ep (nominationTransport fromTcp) (s.arrivedByRelay fromTcp cid) = true ↔
      s.pursuable env ep fromTcp = true := by
  unfold pursuable at hmax ⊢
  unfold onUseCandidate
  dsimp only
  cases hi : s.nominationPair env ep (nominationTransport fromTcp) with
  | some i =>
    obtain ⟨p, hp⟩ : ∃ p, s.checkList[i]? = some p :=
      ⟨_, List.getElem?_eq_getElem (List.findIdx?_eq_some_iff_getElem.mp hi).1⟩
    obtain ⟨hpe, -⟩ := nominationPair_spec hi hp
    rw [hi] at hmax
    dsimp only at hmax ⊢
    split_ifs at hmax ⊢ with hsucc
    · rw [decide_eq_true_eq, or_self] at hmax
      have hkeep : ¬ s.losesConsentAtOnce := fun h => absurd hmax (Nat.not_lt.mpr h.2)
      have hpl : p ∈ (s.onNominated env .useCandidate ep (s.arrivedByRelay fromTcp cid) cid
          (nominationTransport fromTcp)).checkList := by
        rw [onNominated_checkList _ _ _ _ _ hkeep]
        exact mem_of_getElem? hp
      rw [maybeTriggerCheckFromPeer_known env hpl hpe, onNominated_pursues hkeep]
      simp [hmax]
    · generalize hu : (s.markPendingNomination i).stashNomination ep (s.arrivedByRelay fromTcp cid)
        cid (nominationTransport fromTcp) = u
      have hul : u.checkList = (s.markPendingNomination i).checkList := by rw [← hu]; rfl
      have hur : ∀ p ∈ u.checkList, p.Released := by
        rw [hul]
        exact PairStable.modify (released_pairInvariant env).mark i hr
      have hmark : ∃ q ∈ u.checkList, q.endpoint env.net = ep := by
        rw [hul]
        refine ⟨{ p with
          state := if p.state = .frozen then .waiting else p.state
          pendingNomination := true }, mem_of_getElem? (i := i) ?_, hpe⟩
        simp [markPendingNomination, modifyPair, hp]
      obtain ⟨q, hq, hqe⟩ := hmark
      obtain ⟨r, hr', he⟩ := exists_right_of_mem (runNextCheck_evolves env u) hq
      rw [maybeTriggerCheckFromPeer_known env hr' ((he.endpoint env.net).trans hqe),
        runNextCheck_pursuesNomination (by rw [← hu]; exact hs) hur, hul, ← hu, any_eq_true]
      simp only [Bool.and_eq_true, Bool.not_eq_true']
      rfl
  | none =>
    dsimp only
    rw [stashNomination_pursued hs hc hlite hr hep hl hi]
    simp [and_assoc]

/-! ### Role conflicts -/

theorem maybeTriggerCheckFromPeer_cases :
    s.maybeTriggerCheckFromPeer env ep = s ∨
      ((∀ p ∈ s.checkList, p.endpoint env.net ≠ ep) ∧ ∃ l, s.maybeTriggerCheckFromPeer env ep =
        s.pushTriggered env (s.triggeredPair env l (triggeredRemote env.net ep))) := by
  unfold maybeTriggerCheckFromPeer
  split_ifs with h₁ h₂
  · exact .inl rfl
  · exact .inl rfl
  · dsimp only
    split
    · exact .inl rfl
    · rename_i l _
      exact .inr ⟨by simpa using h₂, l, rfl⟩

theorem pushTriggered_evolves :
    List.Forall₂ CheckPair.Evolves (s.checkList ++ [p]) (s.pushTriggered env p).checkList := by
  unfold pushTriggered
  dsimp only
  split_ifs
  · exact (sendCheck_scheduled env { s.drawn with checkList := s.checkList ++ [p] } _).checkList
  · exact forall₂_refl CheckPair.Evolves.refl _

theorem maybeTriggerCheckFromPeer_controlling (env : Env) (hc : s.controlling = true)
    (ep : Endpoint)
    (tx : TransportType) :
    (s.maybeTriggerCheckFromPeer env ep).state = s.state ∧
      (s.maybeTriggerCheckFromPeer env ep).checkList.any (·.pursues env.net ep tx) =
        s.checkList.any (·.pursues env.net ep tx) := by
  rcases maybeTriggerCheckFromPeer_cases with h | ⟨hnew, l, h⟩
  · rw [h]
    exact ⟨rfl, rfl⟩
  · have hbefore : s.checkList.any (·.pursues env.net ep tx) = false := by
      rw [any_eq_false]
      exact fun p hp hpur => hnew p hp (CheckPair.pursues_iff.mp hpur).1
    rw [h, hbefore, any_eq_false]
    refine ⟨pushTriggered_state, fun q hq hpur => ?_⟩
    obtain ⟨p, hp, he⟩ := exists_left_of_mem pushTriggered_evolves hq
    rw [CheckPair.pursues_iff, he.endpoint, he.pendingNomination] at hpur
    rcases mem_append.mp hp with hp | hp
    · exact hnew p hp hpur.1
    · have hmark := hpur.2.2.1
      rw [mem_singleton.mp hp] at hmark
      simp [triggeredPair, hc] at hmark

theorem acceptRequest_controlling (hc : s.controlling = true) :
    s.acceptRequest env m cid fromTcp = (s.answerRequest m cid fromTcp).maybeTriggerCheckFromPeer
      env (s.endpointOf fromTcp cid) := by
  have hc' : (s.answerRequest m cid fromTcp).controlling = true :=
    (congrArg Core.controlling (answerRequest_core m cid fromTcp s)).trans hc
  unfold acceptRequest
  dsimp only
  rw [if_neg (by simp [hc'])]

theorem maybeTriggerCheckFromPeer_unmarked (hc : s.controlling = true)
    (h : ∀ p ∈ s.checkList, p.pendingNomination = false) :
    ∀ p ∈ (s.maybeTriggerCheckFromPeer env ep).checkList, p.pendingNomination = false := by
  rcases maybeTriggerCheckFromPeer_cases with he | ⟨-, l, he⟩
  · rwa [he]
  · rw [he]
    intro q hq
    obtain ⟨p, hp, hpq⟩ := exists_left_of_mem pushTriggered_evolves hq
    rw [hpq.pendingNomination]
    rcases mem_append.mp hp with hp | hp
    · exact h p hp
    · rw [mem_singleton.mp hp]
      simp [triggeredPair, hc]

theorem recheck_unmarked (env : Env) (s : Session) :
    ∀ p ∈ (s.recheck env).checkList, p.pendingNomination = false := by
  intro q hq
  obtain ⟨p, hp, he⟩ := exists_left_of_mem (runNextCheck_evolves env _) hq
  exact he.pendingNomination.trans (buildCheckList_fresh env s hp).1.pendingNomination

theorem recheck_state (env : Env) (hs : s.state = .checking) :
    (s.recheck env).state = .checking ∨ (s.recheck env).state = .failed := by
  have hb : ({ s.buildCheckList env with currentCheck := 0 } : Session).state = .checking :=
    (congrArg Core.state (buildCheckList_core env s)).trans hs
  rw [recheck, runNextCheck_state hb]
  split_ifs
  exacts [.inl rfl, .inr rfl]

theorem pursuesNomination_of_not_connected (hs : s.state ≠ .connected) :
    s.pursuesNomination env ep tx relay = true ↔
      s.state = .checking ∧ s.checkList.any (·.pursues env.net ep tx) = true := by
  simp [pursuesNomination, hs]

theorem recheck_controlling : (s.recheck env).controlling = s.controlling :=
  (congrArg Core.controlling (runNextCheck_core env _)).trans
    (congrArg Core.controlling (buildCheckList_core env s))

theorem acceptRequest_unmarked (env : Env) (cid : Cid) (fromTcp : Bool)
    (hc : s.controlling = true) (hs : s.state ≠ .connected)
    (hun : ∀ p ∈ s.checkList, p.pendingNomination = false) (ep : Endpoint) (tx : TransportType)
    (relay : Bool) :
    ¬ (s.acceptRequest env m cid fromTcp).pursuesNomination env ep tx relay = true := by
  have hcore := answerRequest_core m cid fromTcp s
  have hctl := (congrArg Core.controlling hcore).trans hc
  have hlist : (s.answerRequest m cid fromTcp).checkList = s.checkList :=
    congrArg Core.checkList hcore
  have hst : (s.answerRequest m cid fromTcp).state = s.state := congrArg Core.state hcore
  rw [acceptRequest_controlling hc, pursuesNomination_of_not_connected]
  · rintro ⟨-, h⟩
    obtain ⟨p, hp, hpur⟩ := any_eq_true.mp h
    rw [CheckPair.pursues_iff, maybeTriggerCheckFromPeer_unmarked hctl (hlist ▸ hun) p hp] at hpur
    cases hpur.2.2.1
  · rwa [(maybeTriggerCheckFromPeer_controlling env hctl _ .udp).1, hst]

theorem acceptRequest_controlling_pursues (env : Env) (cid : Cid) (fromTcp : Bool)
    (hc : s.controlling = true) (hs : s.state = .checking) (tx : TransportType) (relay : Bool) :
    (s.acceptRequest env m cid fromTcp).pursuesNomination env (s.endpointOf fromTcp cid) tx relay
        = true ↔
      s.checkList.any (·.pursues env.net (s.endpointOf fromTcp cid) tx) = true := by
  have hcore := answerRequest_core m cid fromTcp s
  have hlist : (s.answerRequest m cid fromTcp).checkList = s.checkList :=
    congrArg Core.checkList hcore
  have hst : (s.answerRequest m cid fromTcp).state = .checking :=
    (congrArg Core.state hcore).trans hs
  obtain ⟨hstate, hany⟩ := maybeTriggerCheckFromPeer_controlling env
    ((congrArg Core.controlling hcore).trans hc) (s.endpointOf fromTcp cid) tx
  rw [acceptRequest_controlling hc, pursuesNomination_of_not_connected, hstate, hany, hst, hlist]
  · simp
  · simp [hstate, hst]

/-- A request that claims our own role is rejected, or it makes us the controlling side. -/
theorem handleBindingRequest_conflict (env : Env) (hs : s.state = .checking)
    (hc : s.controlling = false) (hsame : s.sameRole m = true) (cid : Cid) (fromTcp relay : Bool) :
    (s.handleBindingRequest env m cid fromTcp).pursuesNomination env (s.endpointOf fromTcp cid)
        (nominationTransport fromTcp) relay = true ↔
      ¬ (s.givesWay m ∧ s.flipRebuilds) ∧ s.checkList.any
        (·.pursues env.net (s.endpointOf fromTcp cid) (nominationTransport fromTcp)) = true := by
  unfold handleBindingRequest
  rw [if_pos hsame]
  dsimp only
  rcases handleRoleConflict_eq env s m hsame with ⟨hg, he⟩ | ⟨hg, he⟩
  · rw [he, if_pos rfl]
    rcases flipRole_eq env s with ⟨hf, hflip⟩ | ⟨hf, hflip⟩
    · have hctl : (s.flipRole env).controlling = true := by
        rw [hflip, recheck_controlling]
        simp [hc]
      have hst : (s.flipRole env).state ≠ .connected := by
        rw [hflip]
        rcases recheck_state env (s := { s with controlling := !s.controlling }) hs with h | h
        all_goals simp [h]
      have hun := acceptRequest_unmarked env (m := m) cid fromTcp hctl hst
        (by rw [hflip]; exact recheck_unmarked env _) (s.endpointOf fromTcp cid)
        (nominationTransport fromTcp) relay
      exact iff_of_false hun fun h => h.1 ⟨hg, hf⟩
    · have hctl : (s.flipRole env).controlling = true := by simp [hflip, hc]
      have hst : (s.flipRole env).state = .checking := by rw [hflip]; exact hs
      have hiff := acceptRequest_controlling_pursues env (m := m) cid fromTcp hctl hst
        (nominationTransport fromTcp) relay
      have hep : (s.flipRole env).endpointOf fromTcp cid = s.endpointOf fromTcp cid := by
        rw [hflip]
        rfl
      have hlist : (s.flipRole env).checkList = s.checkList := by rw [hflip]
      rw [hep, hlist] at hiff
      exact hiff.trans ⟨fun h => ⟨fun hgf => hf hgf.2, h⟩, fun h => h.2⟩
  · have hcore : (s.rejectRequest m cid fromTcp).core = s.core := reply_core _ _ _ _ s
    have hst : (s.rejectRequest m cid fromTcp).state = .checking :=
      (congrArg Core.state hcore).trans hs
    have hlist : (s.rejectRequest m cid fromTcp).checkList = s.checkList :=
      congrArg Core.checkList hcore
    rw [he, if_neg Bool.false_ne_true, pursuesNomination_of_not_connected (by simp [hst]), hst,
      hlist]
    simp [hg]

/-- A USE-CANDIDATE request from a known endpoint reaches a controlled session that is checking
and has a local candidate of the sender's family. -/
structure Asked (env : Env) (m : StunMessage) (cid : Cid) (fromTcp : Bool) (s : Session) :
    Prop where
  checking : s.state = .checking
  controlled : s.controlling = false
  full : s.cfg.liteMode = false
  useCandidate : m.useCandidate = true
  known : (s.endpointOf fromTcp cid).ip ≠ []
  sameFamily : ∃ l ∈ s.localCandidates,
    l.family = (triggeredRemote env.net (s.endpointOf fromTcp cid)).family

/-- USE-CANDIDATE leads to a check of its path if, and unless a single missed keepalive loses
consent only if, the path can be checked. -/
theorem useCandidate_pursued {m : StunMessage} {cid : Cid} {fromTcp : Bool}
    (hr : Reachable H env s) (h : s.Asked env m cid fromTcp) :
    (s.leadsToCheck env m cid fromTcp →
        (s.handleBindingRequest env m cid fromTcp).pursuesNomination env (s.endpointOf fromTcp cid)
          (nominationTransport fromTcp) (s.arrivedByRelay fromTcp cid) = true) ∧
      (1 < s.cfg.consentMaxFailures →
        (s.handleBindingRequest env m cid fromTcp).pursuesNomination env (s.endpointOf fromTcp cid)
          (nominationTransport fromTcp) (s.arrivedByRelay fromTcp cid) = true →
        s.leadsToCheck env m cid fromTcp) := by
  unfold leadsToCheck
  split_ifs with hsame
  · have hiff := handleBindingRequest_conflict env h.checking h.controlled hsame cid fromTcp
      (s.arrivedByRelay fromTcp cid)
    exact ⟨hiff.mpr, fun _ => hiff.mp⟩
  · have hcore := answerRequest_core m cid fromTcp s
    have hdraws : (s.answerRequest m cid fromTcp).draws = s.draws := reply_draws
    have hctl : (s.answerRequest m cid fromTcp).controlling = false :=
      (congrArg Core.controlling hcore).trans h.controlled
    have hcfg : (s.answerRequest m cid fromTcp).cfg = s.cfg := congrArg Core.cfg hcore
    have hlist : (s.answerRequest m cid fromTcp).checkList = s.checkList :=
      congrArg Core.checkList hcore
    have hloc : (s.answerRequest m cid fromTcp).localCandidates = s.localCandidates :=
      congrArg Core.localCandidates hcore
    have hrelay : (s.answerRequest m cid fromTcp).arrivedByRelay fromTcp cid =
        s.arrivedByRelay fromTcp cid := arrivedByRelay_reply _ _ _ _ _ _ _
    have haccept : s.handleBindingRequest env m cid fromTcp =
        ((s.answerRequest m cid fromTcp).onUseCandidate env (s.endpointOf fromTcp cid) cid
          fromTcp).maybeTriggerCheckFromPeer env (s.endpointOf fromTcp cid) := by
      rw [handleBindingRequest, if_neg hsame, acceptRequest]
      rw [if_pos ⟨h.useCandidate, by simp [hctl], h.known⟩]
    have hiff (hmax : 1 < s.cfg.consentMaxFailures ∨
        s.pursuable env (s.endpointOf fromTcp cid) fromTcp = true) :=
      onUseCandidate_pursued cid ((congrArg Core.state hcore).trans h.checking) hctl
        (by rw [hcfg, h.full]) (by rw [hlist]; exact (released_pairInvariant env).reachable hr)
        h.known (hloc ▸ h.sameFamily) (by rwa [hcfg, pursuable_congr hcore hdraws])
    rw [haccept, ← hrelay, ← pursuable_congr hcore hdraws]
    exact ⟨fun hp => (hiff (.inr ((pursuable_congr hcore hdraws _ _).symm.trans hp))).mpr hp,
      fun hmax => (hiff (.inl hmax)).mp⟩

instance (env : Env) (m : StunMessage) (cid : Cid) (fromTcp : Bool) (s : Session) :
    Decidable (s.Asked env m cid fromTcp) :=
  decidable_of_iff (s.state = .checking ∧ s.controlling = false ∧ s.cfg.liteMode = false ∧
      m.useCandidate = true ∧ (s.endpointOf fromTcp cid).ip ≠ [] ∧ ∃ l ∈ s.localCandidates,
        l.family = (triggeredRemote env.net (s.endpointOf fromTcp cid)).family)
    ⟨fun ⟨h₁, h₂, h₃, h₄, h₅, h₆⟩ => ⟨h₁, h₂, h₃, h₄, h₅, h₆⟩,
      fun h => ⟨h.1, h.2, h.3, h.4, h.5, h.6⟩⟩

def checkingHost : Session :=
  (create .lan {} {} false 7).run zeroHmac .lan
    [.gather, .addRemoteCandidates [1] [2] [peerHost] false]

def nominationRequest : StunMessage :=
  (peerRequest [] (Env.lan.txnId 99) true true 9).message Env.lan.net

theorem use_candidate_in_progress :
    checkingHost.Asked .lan nominationRequest 6 false ∧
      (checkingHost.handleBindingRequest .lan nominationRequest 6 false).pursuesNomination .lan
        (checkingHost.endpointOf false 6) (nominationTransport false)
        (checkingHost.arrivedByRelay false 6) = true := by
  have hr : Reachable zeroHmac .lan checkingHost := ⟨_, _, _, _, _, rfl⟩
  have hasked : checkingHost.Asked .lan nominationRequest 6 false := by decide +kernel
  refine ⟨hasked, (useCandidate_pursued hr hasked).1 ?_⟩
  have hrole : ¬ checkingHost.sameRole nominationRequest = true := by decide +kernel
  rw [leadsToCheck, if_neg hrole]
  decide +kernel

def checkRefused : List Input :=
  [.event .gather, .event (.addRemoteCandidates [1] [2] [peerHost] false),
    .stun 6 ((((⟨bindingError, Env.lan.txnId 3, []⟩ : StunBuilder).addErrorCode 400 []).addIntegrity
      [2]).addFingerprint)]

def refusedHost (H : Hmac) : Session :=
  (create .lan {} {} false 7).run H .lan (checkRefused.map (·.toEvent H))

/-- It gives up when that pair is nominated. -/
theorem use_candidate_kills :
    ¬ ∃ H : Hmac, (refusedHost H).Asked .lan nominationRequest 6 false →
      ((refusedHost H).handleBindingRequest .lan nominationRequest 6 false).pursuesNomination .lan
        ((refusedHost H).endpointOf false 6) .udp false = true := by
  rintro ⟨H, h⟩
  have hplay : ((create .lan {} {} false 7).play .lan checkRefused).any (fun s =>
      decide (s.Asked .lan nominationRequest 6 false) && !(s.handleBindingRequest .lan
        nominationRequest 6 false).pursuesNomination .lan (s.endpointOf false 6) .udp false) =
      true := by decide +kernel
  have hbad := run_of_play_any hplay H
  rw [Bool.and_eq_true, decide_eq_true_eq, Bool.not_eq_true'] at hbad
  have hpursued := h hbad.1
  rw [refusedHost, hbad.2] at hpursued
  cases hpursued

end Session

end LinkIce
