import LinkIce.Session.HoldingPaths
import LinkIce.Session.Script

/-! Whether the path-MTU search belongs to the path that the session uses. -/
namespace LinkIce

open Stun List

variable {floor : ℕ} {trials : List MtuTrial}

def Effect.path? : Effect → Option NominatedPath
  | nominated _ _ ep relay cid tx => some ⟨ep, relay, cid, tx⟩
  | _ => none

/-- The size of the last probe that was answered; the trials are listed newest first. -/
def lastAcked (floor : ℕ) (trials : List MtuTrial) : ℕ :=
  ((trials.find? fun t => decide (t.outcome = some true)).map MtuTrial.size).getD floor

theorem lastAcked_cons {t : MtuTrial} (h : t.outcome ≠ some true) :
    lastAcked floor (t :: trials) = lastAcked floor trials := by
  simp [lastAcked, h]

theorem lastAcked_cons_acked {t : MtuTrial} (h : t.outcome = some true) :
    lastAcked floor (t :: trials) = t.size := by
  simp [lastAcked, h]

theorem lastAcked_eq : lastAcked floor trials = floor ∨
    ∃ t ∈ trials, t.outcome = some true ∧ t.size = lastAcked floor trials := by
  unfold lastAcked
  cases hf : trials.find? fun t => decide (t.outcome = some true) with
  | none => exact .inl rfl
  | some t =>
    have hacked := List.find?_some hf
    exact .inr ⟨t, mem_of_find?_eq_some hf, of_decide_eq_true hacked, rfl⟩

namespace MtuSearch

variable {m : MtuSearch} {path : NominatedPath} {p : PathMtuProbe}

/-- What holds of the search whatever has happened to the session. -/
structure Consistent (m : MtuSearch) : Prop where
  unstarted : m.probe = none → m.inflight = none ∧ m.trials = []
  effective : m.effective = lastAcked m.cfg.pathMtu m.trials
  probe : ∀ p ∈ m.probe, p.Valid ∧ p.effective = m.effective
  flying : m.inflight.isSome = true → ∃ p ∈ m.probe, p.isComplete = false ∧
    ∃ t older, m.trials = t :: older ∧ t.outcome = none ∧ t.size = p.current

def Timed (m : MtuSearch) : Prop := m.inflight.isSome = true → .pmtuTimeout m.gen ∈ m.timers

structure Sound (m : MtuSearch) : Prop where
  consistent : Consistent m
  timed : m.hasTimer = true → Timed m

/-- All probes went over the path, and the search is complete or waits for one of them. -/
def tracks (path : NominatedPath) (m : MtuSearch) : Bool :=
  m.trials.all (fun t => decide (t.path = path)) &&
    m.probe.any fun p => p.isComplete || m.inflight.isSome

def launch (path : NominatedPath) (txn : TransactionId) (size : ℕ) (m : MtuSearch) : MtuSearch :=
  { m with
    inflight := some txn
    gen := if m.hasTimer then m.gen + 1 else m.gen
    trials := ⟨path, size, none⟩ :: m.trials
    timers := if m.hasTimer then .pmtuTimeout (m.gen + 1) :: m.timers else m.timers }

/-- The fate of the probe in flight is known, and the search has become `p`. -/
def settle (acked : Bool) (p : PathMtuProbe) (gen : ℕ) (m : MtuSearch) : MtuSearch :=
  { m with
    inflight := none
    gen := gen
    trials := m.trials.modifyHead fun t => { t with outcome := some acked }
    probe := some p
    effective := p.effective }

theorem Consistent.launch (h : Consistent m) (hp : m.probe = some p)
    (hsearch : p.isComplete = false) (txn : TransactionId) :
    Consistent (m.launch path txn p.current) where
  unstarted hn := absurd (hp.symm.trans hn) (by simp)
  effective := h.effective.trans (lastAcked_cons (by simp)).symm
  probe := h.probe
  flying _ := ⟨p, hp, hsearch, _, _, rfl, rfl, rfl⟩

theorem Timed.launch (ht : m.hasTimer = true) (path : NominatedPath) (txn : TransactionId)
    (size : ℕ) : Timed (m.launch path txn size) := by
  intro _
  simp [MtuSearch.launch, ht]

theorem Consistent.settle_acked (h : Consistent m) (hp : m.probe = some p)
    (hin : m.inflight.isSome = true) (gen : ℕ) : Consistent (m.settle true p.onProbeAck gen) := by
  obtain ⟨q, hq, hsearch, t, older, htrials, -, hsize⟩ := h.flying hin
  obtain rfl := Option.some.inj (hp.symm.trans hq)
  have heff := PathMtuProbe.onProbeAck_effective hsearch
  refine ⟨nofun, ?_, ?_, nofun⟩
  · have hhead : (m.settle true p.onProbeAck gen).trials =
        { t with outcome := some true } :: older := by
      simp only [settle, htrials, modifyHead_cons]
    rw [hhead, lastAcked_cons_acked rfl, hsize]
    exact heff
  · rintro _ ⟨⟩
    exact ⟨(h.probe p hp).1.onProbeAck, rfl⟩

theorem Consistent.settle_lost (h : Consistent m) (hp : m.probe = some p)
    (hin : m.inflight.isSome = true) (gen : ℕ) : Consistent (m.settle false p.onProbeLoss gen) := by
  obtain ⟨q, hq, -, t, older, htrials, hnone, -⟩ := h.flying hin
  obtain rfl := Option.some.inj (hp.symm.trans hq)
  refine ⟨nofun, ?_, ?_, nofun⟩
  · have hhead : (m.settle false p.onProbeLoss gen).trials =
        { t with outcome := some false } :: older := by
      simp only [settle, htrials, modifyHead_cons]
    have hbefore := h.effective
    rw [htrials, lastAcked_cons (by simp [hnone])] at hbefore
    rw [hhead, lastAcked_cons (by simp)]
    exact (PathMtuProbe.onProbeLoss_effective).trans ((h.probe p hp).2.trans hbefore)
  · rintro _ ⟨⟩
    exact ⟨(h.probe p hp).1.onProbeLoss, rfl⟩

theorem settle_paths (acked : Bool) (p : PathMtuProbe) (gen : ℕ)
    (h : ∀ t ∈ m.trials, t.path = path) :
    ∀ t ∈ (m.settle acked p gen).trials, t.path = path := by
  simp only [settle]
  cases htrials : m.trials with
  | nil => exact nofun
  | cons t older =>
    rw [htrials] at h
    rw [modifyHead_cons]
    exact forall_mem_cons.mpr ⟨h t mem_cons_self, fun u hu => h u (mem_cons_of_mem t hu)⟩

theorem tracks_iff : m.tracks path = true ↔ (∀ t ∈ m.trials, t.path = path) ∧
    ∃ p ∈ m.probe, p.isComplete = true ∨ m.inflight.isSome = true := by
  simp only [tracks, Bool.and_eq_true, all_eq_true, decide_eq_true_eq, Option.any_eq_true,
    Bool.or_eq_true, Option.mem_def]

end MtuSearch

namespace Session

variable {H : Hmac} {env : Env} {s t : Session} {e : Event} {p : PathMtuProbe} {size : ℕ}

/-! ### The functions of the search -/

theorem armPmtuTimer_search : s.armPmtuTimer.search = { s.search with
    gen := if s.hasTimer then s.pmtuProbeGen + 1 else s.pmtuProbeGen
    timers := if s.hasTimer then .pmtuTimeout (s.pmtuProbeGen + 1) :: s.search.timers
      else s.search.timers } := by
  unfold armPmtuTimer
  split
  · simp only [search, post, Task.isMtuTimer, filter_cons, if_true]
  · rfl

theorem sendPmtuProbe_search (h : ¬ (s.nominatedCid = 0 ∨ !s.hasCarrier)) :
    (s.sendPmtuProbe env size).search = { s.search with
      inflight := some (env.txnId s.draws)
      gen := if s.hasTimer then s.pmtuProbeGen + 1 else s.pmtuProbeGen
      timers := if s.hasTimer then .pmtuTimeout (s.pmtuProbeGen + 1) :: s.search.timers
        else s.search.timers } := by
  rw [sendPmtuProbe, if_neg h]
  exact armPmtuTimer_search

theorem launch_search (h : ¬ (s.nominatedCid = 0 ∨ !s.hasCarrier)) :
    ((s.noteMtuProbe env size).sendPmtuProbe env size).search =
      s.search.launch s.nominatedPath (env.txnId s.draws) size := by
  generalize hu : s.noteMtuProbe env size = u
  rw [noteMtuProbe, if_neg h] at hu
  have hsame : ¬ (u.nominatedCid = 0 ∨ !u.hasCarrier) := hu ▸ h
  rw [sendPmtuProbe_search hsame, ← hu]
  rfl

/-- What the session does next for its search: nothing, or another probe. -/
theorem startPathMtuProbe_search (hp : s.pmtuProbe = some p)
    (hin : s.pmtuInflight = none) (hs : s.search.Consistent) :
    ((s.startPathMtuProbe env).search = s.search ∧
        (s.state ≠ .connected ∨ p.isComplete = true ∨ s.nominatedCid = 0 ∨ s.hasCarrier = false)) ∨
      p.isComplete = false ∧ (s.startPathMtuProbe env).search =
        s.search.launch s.nominatedPath (env.txnId s.draws) p.current := by
  obtain ⟨hvalid, heff⟩ := hs.probe p hp
  unfold startPathMtuProbe
  split
  · rename_i hn
    cases hp.symm.trans hn
  rename_i q hq
  obtain rfl := Option.some.inj (hp.symm.trans hq)
  split
  · rename_i hst
    exact .inl ⟨rfl, .inl (hst.resolve_right (by simp [hin]))⟩
  · cases hc : p.isComplete with
    | true =>
      rw [PathMtuProbe.nextProbeSize_complete hc]
      refine .inl ⟨?_, .inr (.inl rfl)⟩
      have hsame : s.search.effective = p.effective := heff.symm
      simp only [search] at hsame ⊢
      rw [hsame]
    | false =>
      rw [PathMtuProbe.nextProbeSize_valid hvalid hc]
      dsimp only
      by_cases hsend : s.nominatedCid = 0 ∨ !s.hasCarrier
      · rw [noteMtuProbe, if_pos hsend, sendPmtuProbe, if_pos hsend]
        refine .inl ⟨rfl, .inr (.inr ?_)⟩
        simpa using hsend
      · exact .inr ⟨rfl, launch_search hsend⟩

theorem startPathMtuProbe_sound (hp : s.pmtuProbe = some p) (hin : s.pmtuInflight = none)
    (hs : s.search.Consistent) : (s.startPathMtuProbe env).search.Sound := by
  rcases startPathMtuProbe_search hp hin hs with ⟨hsame, -⟩ | ⟨hc, hl⟩
  · rw [hsame]
    exact ⟨hs, fun _ h => absurd h (by simp [search, hin])⟩
  · rw [hl]
    have htimed (ht : s.search.hasTimer = true) := MtuSearch.Timed.launch ht s.nominatedPath
      (env.txnId s.draws) p.current
    exact ⟨hs.launch hp hc _, htimed⟩

theorem startPathMtuProbe_tracks (hp : s.pmtuProbe = some p) (hin : s.pmtuInflight = none)
    (hs : s.search.Consistent) (hc : s.state = .connected) (hcid : s.nominatedCid ≠ 0)
    (hcar : s.hasCarrier = true) (hpath : ∀ t ∈ s.mtuTrials, t.path = s.nominatedPath) :
    (s.startPathMtuProbe env).search.tracks s.nominatedPath = true := by
  rw [MtuSearch.tracks_iff]
  rcases startPathMtuProbe_search hp hin hs with ⟨hsame, hwhy⟩ | ⟨-, hl⟩
  · rw [hsame]
    refine ⟨hpath, p, hp, .inl ?_⟩
    rcases hwhy with h | h | h | h
    · exact absurd hc h
    · exact h
    · exact absurd h hcid
    · rw [hcar] at h
      cases h
  · rw [hl]
    exact ⟨forall_mem_cons.mpr ⟨rfl, hpath⟩, p, hp, .inr rfl⟩

/-- The session goes on with a search that was just told an outcome. -/
def goOn (env : Env) (p : PathMtuProbe) (s : Session) : Session :=
  if p.isComplete then s else s.startPathMtuProbe env

theorem goOn_sound (env : Env) (hp : s.pmtuProbe = some p)
    (hin : s.pmtuInflight = none) (hs : s.search.Consistent) :
    (s.goOn env p).search.Sound := by
  unfold goOn
  split
  · exact ⟨hs, fun _ h => absurd h (by simp [search, hin])⟩
  · exact startPathMtuProbe_sound hp hin hs

theorem goOn_tracks (env : Env) (hp : s.pmtuProbe = some p)
    (hin : s.pmtuInflight = none) (hs : s.search.Consistent) (hc : s.state = .connected)
    (hcid : s.nominatedCid ≠ 0) (hcar : s.hasCarrier = true)
    (hpath : ∀ t ∈ s.mtuTrials, t.path = s.nominatedPath) :
    (s.goOn env p).search.tracks s.nominatedPath = true := by
  unfold goOn
  split
  · rename_i hcomplete
    exact MtuSearch.tracks_iff.mpr ⟨hpath, p, hp, .inl hcomplete⟩
  · exact startPathMtuProbe_tracks hp hin hs hc hcid hcar hpath

def settled (acked : Bool) (p : PathMtuProbe) (gen : ℕ) (s : Session) : Session :=
  { s with
    pmtuInflight := none
    pmtuProbeGen := gen
    mtuTrials := s.mtuTrials.modifyHead fun t => { t with outcome := some acked }
    pmtuProbe := some p
    effectiveMtu := p.effective }

theorem advancePmtu_some (env : Env) (f : PathMtuProbe → PathMtuProbe)
    (hp : s.pmtuProbe = some p) : s.advancePmtu env f =
      { s with pmtuProbe := some (f p), effectiveMtu := (f p).effective }.goOn env (f p) := by
  unfold advancePmtu
  split
  · rename_i hn
    cases hp.symm.trans hn
  · rename_i q hq
    obtain rfl := Option.some.inj (hp.symm.trans hq)
    rfl

theorem onPathMtuAck_eq (env : Env) (hp : s.pmtuProbe = some p) :
    s.onPathMtuAck env =
      ((s.settled true p.onProbeAck (s.pmtuProbeGen + 1)).goOn env
        p.onProbeAck).refreshConsent := by
  unfold onPathMtuAck
  exact congrArg refreshConsent (advancePmtu_some env _ hp)

theorem onPathMtuProbeTimeout_eq (hp : s.pmtuProbe = some p) (hin : s.pmtuInflight.isSome = true) :
    s.onPathMtuProbeTimeout env =
      (s.settled false p.onProbeLoss s.pmtuProbeGen).goOn env p.onProbeLoss := by
  have hguard : ¬ (s.pmtuProbe.isNone = true ∨ s.pmtuInflight.isNone = true) := by
    cases hfly : s.pmtuInflight with
    | none => simp [hfly] at hin
    | some txn => simp [hp]
  rw [onPathMtuProbeTimeout, if_neg hguard]
  exact advancePmtu_some env _ hp

def begun (s : Session) : Session :=
  { s with pmtuProbe := some (PathMtuProbe.make s.cfg.pathMtu s.cfg.pmtuSearchSteps) }

theorem beginPathMtu_eq (env : Env) (s : Session) : s.beginPathMtu env =
    if s.cfg.pmtuActiveProbing ∧ s.pmtuProbe.isNone then s.begun.startPathMtuProbe env else s := rfl

theorem begun_consistent (h : s.search.Consistent) (hnone : s.pmtuProbe = none) :
    s.begun.search.Consistent := by
  obtain ⟨hin, htrials⟩ := h.unstarted hnone
  have hfloor : s.search.effective = s.cfg.pathMtu := by
    rw [h.effective, htrials]
    rfl
  refine ⟨nofun, h.effective, ?_, fun hfly => ?_⟩
  · rintro _ ⟨⟩
    exact ⟨PathMtuProbe.valid_make _ _, (PathMtuProbe.make_effective).trans hfloor.symm⟩
  · have hnot : s.begun.search.inflight = none := hin
    rw [hnot] at hfly
    cases hfly

/-! ### One step -/

theorem beginPathMtu_sound (h : s.search.Sound) : (s.beginPathMtu env).search.Sound := by
  rw [beginPathMtu_eq]
  split
  · rename_i hstart
    have hnone : s.pmtuProbe = none := Option.isNone_iff_eq_none.mp hstart.2
    have hin : s.begun.pmtuInflight = none := (h.consistent.unstarted hnone).1
    exact startPathMtuProbe_sound rfl hin (begun_consistent h.consistent hnone)
  · exact h

variable {origin : NominationOrigin} {ep : Endpoint} {relay : Bool} {cid : Cid} {tx : TransportType}
  {buf : Bytes}

theorem onNominated_sound (h : s.search.Sound) :
    (s.onNominated env origin ep relay cid tx).search.Sound := by
  have hsearch : ((s.announced env origin ep relay cid tx).onKeepalive env).search = s.search :=
    (onKeepalive_roams env _).search.trans (congrArg Holdings.search announced_holdings)
  rw [onNominated_eq]
  exact beginPathMtu_sound (hsearch ▸ h)

theorem onPathMtuAck_sound (h : s.search.Sound) (hin : s.pmtuInflight.isSome = true) :
    (s.onPathMtuAck env).search.Sound := by
  obtain ⟨p, hp, -⟩ := h.consistent.flying hin
  have hgo := goOn_sound env (s := s.settled true p.onProbeAck (s.pmtuProbeGen + 1)) rfl rfl
    (h.consistent.settle_acked hp hin _)
  rw [onPathMtuAck_eq env hp]
  generalize (s.settled true p.onProbeAck (s.pmtuProbeGen + 1)).goOn env p.onProbeAck = t at hgo ⊢
  exact hgo

theorem onPathMtuProbeTimeout_sound (h : s.search.Consistent) :
    (s.onPathMtuProbeTimeout env).search.Sound := by
  cases hin : s.pmtuInflight with
  | none =>
    rw [onPathMtuProbeTimeout, if_pos (by simp [hin])]
    exact ⟨h, fun _ hfly => absurd hfly (by simp [search, hin])⟩
  | some txn =>
    have hfly : s.search.inflight.isSome = true := by simp [search, hin]
    obtain ⟨p, hp, -⟩ := h.flying hfly
    rw [onPathMtuProbeTimeout_eq hp hfly]
    exact goOn_sound env rfl rfl (h.settle_lost hp hfly _)

/-- The search does not look at the timers. -/
theorem dequeue_consistent {k : Task} (h : s.search.Consistent) :
    (s.dequeue k).search.Consistent := ⟨h.unstarted, h.effective, h.probe, h.flying⟩

private theorem dequeue_stale {gen : ℕ} (h : s.search.Sound) (hgen : s.pmtuProbeGen ≠ gen) :
    (s.dequeue (.pmtuTimeout gen)).search.Sound := by
  refine ⟨dequeue_consistent h.consistent, fun ht hfly => ?_⟩
  have htimer := h.timed ht hfly
  simp only [search, mem_filter, dequeue] at htimer ⊢
  refine ⟨(mem_erase_of_ne ?_).mpr htimer.1, htimer.2⟩
  simpa using hgen

theorem Passage.sound (h : Passage env s t) (hs : s.search.Sound) : t.search.Sound := by
  cases h with
  | kept h => exact h.search ▸ hs
  | acked hin ht => exact ht ▸ onPathMtuAck_sound hs hin
  | expired gen _ _ ht =>
    exact ht ▸ onPathMtuProbeTimeout_sound (dequeue_consistent hs.consistent)
  | stale gen hgen ht => exact ht ▸ dequeue_stale hs hgen
  | gathered u hu ht =>
    rw [ht.search, (gatherPortmap_keeps).2.1, hu.search]
    exact hs
  | closed u hu ht =>
    rw [ht.search, releasePortmapMapping_search, hu.search]
    exact hs
  | nominated v origin ep relay cid tx hv ht =>
    rw [ht.search]
    exact onNominated_sound (hv.search ▸ hs)

theorem sendPosted_search : (s.sendPosted env buf).search = s.search := by
  obtain ⟨pending, handed, h⟩ := sendPosted_holdings
  exact congrArg Holdings.search h

theorem sendPosted_nominations : (s.sendPosted env buf).mail.nominations = s.mail.nominations := by
  obtain ⟨pending, handed, h⟩ := sendPosted_holdings
  exact congrArg (·.mail.nominations) h

theorem step_sound (h : s.search.Sound) : (s.step H env e).search.Sound := by
  by_cases he : ∃ buf, e = .send buf
  · obtain ⟨buf, rfl⟩ := he
    have hsend : (s.step H env (.send buf)).search = s.search := sendPosted_search
    exact hsend ▸ h
  · obtain ⟨u, hu, -, hp⟩ := step_passage fun buf hb => he ⟨buf, hb⟩
    exact hp.sound (hu.search ▸ h)

/-! ### The path -/

def newPath (s t : Session) : Option NominatedPath :=
  if s.mail.nominations.length < t.mail.nominations.length then
    t.mail.nominations.head?.bind Effect.path?
  else none

/-- The path has a connection, and a search that has begun went over it all along and does not
stand still. -/
def suits (s : Session) (path : NominatedPath) : Bool :=
  path.cid != 0 && (s.pmtuProbe.isNone || s.search.tracks path)

/-- Every path that the event nominates suits the search, and the session is not torn down while
it is Connected. -/
def keepsSearch (H : Hmac) (env : Env) (s : Session) (e : Event) : Prop :=
  (∀ path ∈ newPath s (s.step H env e), s.suits path = true) ∧
    (e = .task .closeTeardown → .closeTeardown ∈ s.queue → s.state ≠ .connected)

/-- A Connected session that probes has all its probes on its path. -/
def OnCourse (s : Session) : Prop :=
  s.state = .connected → s.cfg.pmtuActiveProbing = true → s.hasCarrier = true →
    s.nominatedCid ≠ 0 ∧ s.search.tracks s.nominatedPath = true

theorem onPathMtuAck_tracks (h : s.search.Consistent) (hin : s.pmtuInflight.isSome = true)
    (hc : s.state = .connected) (hcar : s.hasCarrier = true) (hcid : s.nominatedCid ≠ 0)
    (ht : s.search.tracks s.nominatedPath = true) :
    (s.onPathMtuAck env).search.tracks s.nominatedPath = true := by
  obtain ⟨p, hp, -⟩ := h.flying hin
  have hpaths := (MtuSearch.tracks_iff.mp ht).1
  have hgo := goOn_tracks env (s := s.settled true p.onProbeAck (s.pmtuProbeGen + 1)) rfl rfl
    (h.settle_acked hp hin _) hc hcid hcar
    (MtuSearch.settle_paths true p.onProbeAck (s.pmtuProbeGen + 1) hpaths)
  rw [onPathMtuAck_eq env hp]
  generalize (s.settled true p.onProbeAck (s.pmtuProbeGen + 1)).goOn env p.onProbeAck = t at hgo ⊢
  exact hgo

theorem onPathMtuProbeTimeout_tracks (h : s.search.Consistent)
    (hc : s.state = .connected) (hcar : s.hasCarrier = true) (hcid : s.nominatedCid ≠ 0)
    (ht : s.search.tracks s.nominatedPath = true) :
    (s.onPathMtuProbeTimeout env).search.tracks s.nominatedPath = true := by
  cases hin : s.pmtuInflight with
  | none =>
    rw [onPathMtuProbeTimeout, if_pos (by simp [hin])]
    exact ht
  | some txn =>
    have hfly : s.search.inflight.isSome = true := by simp [search, hin]
    obtain ⟨p, hp, -⟩ := h.flying hfly
    have hpaths := (MtuSearch.tracks_iff.mp ht).1
    rw [onPathMtuProbeTimeout_eq hp hfly]
    exact goOn_tracks env rfl rfl (h.settle_lost hp hfly _) hc hcid hcar
      (MtuSearch.settle_paths false p.onProbeLoss s.pmtuProbeGen hpaths)

theorem Passage.tracks (h : Passage env s t) (hs : s.search.Consistent)
    (hn : t.mail.nominations = s.mail.nominations) (hc : s.state = .connected)
    (hcar : s.hasCarrier = true) (hcid : s.nominatedCid ≠ 0)
    (ht : s.search.tracks s.nominatedPath = true) :
    t.search.tracks s.nominatedPath = true := by
  cases h with
  | kept h => exact h.search ▸ ht
  | acked hin he => exact he ▸ onPathMtuAck_tracks hs hin hc hcar hcid ht
  | expired gen _ _ he =>
    exact he ▸ onPathMtuProbeTimeout_tracks (dequeue_consistent hs) hc hcar hcid ht
  | stale gen _ he => exact he ▸ ht
  | gathered u hu he =>
    rw [he.search, (gatherPortmap_keeps).2.1, hu.search]
    exact ht
  | closed u hu he =>
    rw [he.search, releasePortmapMapping_search, hu.search]
    exact ht
  | nominated v origin ep relay cid tx hv he =>
    rw [he.mail, onNominated_mail, hv.mail] at hn
    exact absurd hn (cons_ne_self _ _)

/-- A nomination that suits the search puts the session on the path of its search. -/
theorem onNominated_onCourse (hs : s.search.Consistent)
    (hsuits : s.suits ⟨ep, relay, cid, tx⟩ = true)
    (hprobing : s.cfg.pmtuActiveProbing = true) (hcar : s.hasCarrier = true)
    (hc : (s.onNominated env origin ep relay cid tx).state = .connected) :
    (s.onNominated env origin ep relay cid tx).nominatedPath = ⟨ep, relay, cid, tx⟩ ∧
      (s.onNominated env origin ep relay cid tx).search.tracks ⟨ep, relay, cid, tx⟩ = true := by
  simp only [suits, Bool.and_eq_true, bne_iff_ne, ne_eq, Bool.or_eq_true] at hsuits
  obtain ⟨hcid, hsearch⟩ := hsuits
  have hroute : cid ≠ 0 →
      (s.announced env origin ep relay cid tx).nominatedPath = ⟨ep, relay, cid, tx⟩ :=
    announced_route.2
  have hsame : ((s.announced env origin ep relay cid tx).onKeepalive env).search = s.search :=
    (onKeepalive_roams env _).search.trans (congrArg Holdings.search announced_holdings)
  have hcalm := onKeepalive_calm env (s.announced env origin ep relay cid tx)
  rw [onNominated_eq] at hc ⊢
  generalize s.announced env origin ep relay cid tx = u at hroute hcalm hsame hc ⊢
  generalize u.onKeepalive env = k at hsame hcalm hc ⊢
  have hm := beginPathMtu_measures env k
  have hk : k.state = .connected := hm.state ▸ hc
  have hucid : u.nominatedCid ≠ 0 := by
    rw [show u.nominatedCid = cid from congrArg NominatedPath.cid (hroute hcid)]
    exact hcid
  have hpath : k.nominatedPath = ⟨ep, relay, cid, tx⟩ := ((hcalm hk).2 hucid).trans (hroute hcid)
  refine ⟨hm.path.trans hpath, ?_⟩
  have hkcid : k.nominatedCid ≠ 0 := by
    rw [show k.nominatedCid = cid from congrArg NominatedPath.cid hpath]
    exact hcid
  have hkcar : k.hasCarrier = true := (congrArg MtuSearch.hasCarrier hsame).trans hcar
  have hkcfg : k.cfg = s.cfg := congrArg MtuSearch.cfg hsame
  have hkprobe : k.pmtuProbe = s.pmtuProbe := congrArg MtuSearch.probe hsame
  have hkcons : k.search.Consistent := hsame ▸ hs
  rw [beginPathMtu_eq, hkcfg, hkprobe, ← hpath]
  split
  · rename_i hstart
    have hnone : k.pmtuProbe = none := hkprobe.trans (Option.isNone_iff_eq_none.mp hstart.2)
    obtain ⟨hin, htrials⟩ := hkcons.unstarted hnone
    have hempty : ∀ t ∈ k.begun.mtuTrials, t.path = k.begun.nominatedPath := by
      rw [show k.begun.mtuTrials = [] from htrials]
      exact nofun
    exact startPathMtuProbe_tracks rfl hin (begun_consistent hkcons hnone) hk hkcid hkcar hempty
  · rename_i hbegun
    rw [hsame, hpath]
    exact hsearch.resolve_left fun hn => hbegun ⟨hprobing, hn⟩

theorem step_static :
    (s.step H env e).cfg = s.cfg ∧ (s.step H env e).hasCarrier = s.hasCarrier ∧
      (s.step H env e).hasTimer = s.hasTimer := by
  have hw := steps_wiring (step_steps H env s e)
  exact ⟨congrArg (·.1) hw, congrArg (·.2.2.1) hw, congrArg (·.2.2.2.2.1) hw⟩

theorem quiet_onCourse (h : OnCourse s) (hk : s.keepsSearch H env e)
    (hn : (s.step H env e).mail.nominations = s.mail.nominations)
    (ht : s.state = .connected → s.hasCarrier = true → s.nominatedCid ≠ 0 →
      s.search.tracks s.nominatedPath = true →
        (s.step H env e).search.tracks s.nominatedPath = true) :
    OnCourse (s.step H env e) := by
  intro hc hprobing hcar
  obtain ⟨hcfg, hcarrier, -⟩ := step_static
  rw [hcfg] at hprobing
  rw [hcarrier] at hcar
  obtain ⟨hs, hpath⟩ := step_calm hn hc
  obtain ⟨hcid, htracks⟩ := h hs hprobing hcar
  by_cases he : e = .task .closeTeardown
  · subst he
    by_cases hq : .closeTeardown ∈ s.queue
    · exact absurd hs (hk.2 rfl hq)
    · rw [show s.step H env (.task .closeTeardown) = s from if_neg hq]
      exact ⟨hcid, htracks⟩
  · have hsame := hpath he hcid
    rw [hsame, show (s.step H env e).nominatedCid = s.nominatedCid from
      congrArg NominatedPath.cid hsame]
    exact ⟨hcid, ht hs hcar hcid htracks⟩

theorem step_nominates (hn : (s.step H env e).mail.nominations ≠ s.mail.nominations) :
    ∃ (v : Session) (origin : NominationOrigin) (ep : Endpoint) (relay : Bool) (cid : Cid)
      (tx : TransportType), v.search = s.search ∧
        newPath s (s.step H env e) = some ⟨ep, relay, cid, tx⟩ ∧
        Retains (v.onNominated env origin ep relay cid tx) (s.step H env e) ∧
        Calm (v.onNominated env origin ep relay cid tx) (s.step H env e) := by
  have he : ∀ buf, e ≠ .send buf := by
    rintro buf rfl
    exact hn sendPosted_nominations
  obtain ⟨u, hu, -, hp⟩ := step_passage he
  have hnu : u.mail.nominations = s.mail.nominations := congrArg Mail.nominations hu.mail
  obtain ⟨v, origin, ep, relay, cid, tx, hv, ht, hcalm⟩ :=
    hp.mail_or_nominated.resolve_left fun hm => hn ((congrArg Mail.nominations hm).trans hnu)
  refine ⟨v, origin, ep, relay, cid, tx, hv.search.trans hu.search, ?_, ht, hcalm⟩
  have hnom : (s.step H env e).mail.nominations =
      .nominated origin v.controlling ep relay cid tx :: s.mail.nominations := by
    rw [ht.mail, onNominated_mail, hv.mail, hu.mail]
  rw [newPath, hnom, length_cons, if_pos (Nat.lt_succ_self _)]
  rfl

theorem nominating_onCourse (hs : s.search.Consistent) (hk : s.keepsSearch H env e)
    (hn : (s.step H env e).mail.nominations ≠ s.mail.nominations) :
    OnCourse (s.step H env e) := by
  obtain ⟨v, origin, ep, relay, cid, tx, hvs, hnew, ht, hcalm⟩ := step_nominates hn
  obtain ⟨hcfg, hcarrier, -⟩ := step_static
  have hsuits : v.suits ⟨ep, relay, cid, tx⟩ = true := by
    rw [suits, show v.pmtuProbe = s.pmtuProbe from congrArg MtuSearch.probe hvs, hvs]
    exact hk.1 _ hnew
  have hcid : cid ≠ 0 := by
    simp only [suits, Bool.and_eq_true, bne_iff_ne, ne_eq] at hsuits
    exact hsuits.1
  intro hc hprobing hcar
  rw [hcfg, ← show v.cfg = s.cfg from congrArg MtuSearch.cfg hvs] at hprobing
  rw [hcarrier, ← show v.hasCarrier = s.hasCarrier from congrArg MtuSearch.hasCarrier hvs] at hcar
  obtain ⟨hconn, hkeep⟩ := hcalm hc
  obtain ⟨hpath, htracks⟩ := onNominated_onCourse (hvs ▸ hs) hsuits hprobing hcar hconn
  have hncid : (v.onNominated env origin ep relay cid tx).nominatedCid ≠ 0 := by
    rw [show (v.onNominated env origin ep relay cid tx).nominatedCid = cid from
      congrArg NominatedPath.cid hpath]
    exact hcid
  have hsame := (hkeep hncid).trans hpath
  rw [ht.search, hsame, show (s.step H env e).nominatedCid = cid from
    congrArg NominatedPath.cid hsame]
  exact ⟨hcid, htracks⟩

theorem step_onCourse (hs : s.search.Consistent) (h : OnCourse s) (hk : s.keepsSearch H env e) :
    OnCourse (s.step H env e) := by
  by_cases hn : (s.step H env e).mail.nominations = s.mail.nominations
  · refine quiet_onCourse h hk hn fun hc hcar hcid ht => ?_
    by_cases he : ∃ buf, e = .send buf
    · obtain ⟨buf, rfl⟩ := he
      have hsend : (s.step H env (.send buf)).search = s.search := sendPosted_search
      exact hsend ▸ ht
    · obtain ⟨u, hu, -, hp⟩ := step_passage fun buf hb => he ⟨buf, hb⟩
      have hnu : u.mail.nominations = s.mail.nominations :=
        congrArg Mail.nominations hu.mail
      have hcaru : u.hasCarrier = s.hasCarrier := congrArg MtuSearch.hasCarrier hu.search
      have hcidu : u.nominatedCid = s.nominatedCid := congrArg NominatedPath.cid hu.path
      rw [← hu.path]
      refine hp.tracks (hu.search ▸ hs) (hn.trans hnu.symm) (hu.state.trans hc)
        (hcaru.trans hcar) (hcidu ▸ hcid) ?_
      rw [hu.search, hu.path]
      exact ht
  · exact nominating_onCourse hs hk hn

/-! ### Runs -/

/-- The path MTU in use is the configured one or was acknowledged on the path, and the search on
the path is complete or a probe on it is in flight, with a timer that will fire. -/
def MtuOfPath (s : Session) : Prop :=
  s.state = .connected → s.cfg.pmtuActiveProbing = true → s.hasCarrier = true →
    s.nominatedCid ≠ 0 →
      (s.effectiveMtu = s.cfg.pathMtu ∨ ∃ t ∈ s.mtuTrials, t.path = s.nominatedPath ∧
        t.outcome = some true ∧ t.size = s.effectiveMtu) ∧
      ((∃ p ∈ s.pmtuProbe, p.isComplete = true ∧ ∀ t ∈ s.mtuTrials, t.path = s.nominatedPath) ∨
        (∃ t ∈ s.mtuTrials.head?, t.path = s.nominatedPath ∧ t.outcome = none) ∧
          s.pmtuInflight.isSome = true ∧ .pmtuTimeout s.pmtuProbeGen ∈ s.queue)

theorem OnCourse.mtuOfPath (h : OnCourse s) (hs : s.search.Sound) (ht : s.hasTimer = true) :
    MtuOfPath s := by
  intro hc hprobing hcar _
  obtain ⟨hpaths, p, hp, hgoing⟩ := MtuSearch.tracks_iff.mp (h hc hprobing hcar).2
  refine ⟨?_, ?_⟩
  · have heff : s.effectiveMtu = lastAcked s.cfg.pathMtu s.mtuTrials := hs.consistent.effective
    rw [heff]
    rcases lastAcked_eq with hfloor | ⟨t, hmem, hacked, hsize⟩
    · exact .inl hfloor
    · exact .inr ⟨t, hmem, hpaths t hmem, hacked, hsize⟩
  · rcases hgoing with hcomplete | hfly
    · exact .inl ⟨p, hp, hcomplete, hpaths⟩
    · obtain ⟨-, -, -, t, older, htrials, hnone, -⟩ := hs.consistent.flying hfly
      have hhead : s.mtuTrials = t :: older := htrials
      have htimer : .pmtuTimeout s.pmtuProbeGen ∈ s.queue :=
        (mem_filter.mp (hs.timed ht hfly)).1
      refine .inr ⟨⟨t, by rw [hhead]; rfl, hpaths t ?_, hnone⟩, hfly, htimer⟩
      rw [htrials]
      exact mem_cons_self

theorem create_sound (env : Env) (cfg : IceConfig) (w : Wiring) (controlling : Bool)
    (tiebreaker : ℕ) : (create env cfg w controlling tiebreaker).search.Sound :=
  ⟨⟨fun _ => ⟨rfl, rfl⟩, rfl, nofun, nofun⟩, fun _ => nofun⟩

/-- In a run of a session with timers in which every nomination suits the search and no teardown
meets a Connected session, the path MTU is always that of the path. -/
theorem path_mtu_follows_path (H : Hmac) (env : Env) (cfg : IceConfig) (w : Wiring)
    (controlling : Bool) (tiebreaker : ℕ) (es : List Event) (hw : w.timer = true)
    (h : Along (step H env) (keepsSearch H env) (create env cfg w controlling tiebreaker) es) :
    ∀ fs, fs <+: es → MtuOfPath ((create env cfg w controlling tiebreaker).run H env fs) := by
  intro fs hfs
  have hinv := (h.restrict hfs).invariant
    (I := fun s => s.search.Sound ∧ OnCourse s ∧ s.hasTimer = true)
    (fun s e hk ⟨hs, hcourse, ht⟩ => ⟨step_sound hs, step_onCourse hs.consistent hcourse hk,
      (step_static).2.2.trans ht⟩)
    ⟨create_sound env cfg w controlling tiebreaker, nofun, hw⟩
  exact hinv.2.1.mtuOfPath hinv.1 hinv.2.2

/-- The script's input nominates only paths that suit the search, and tears nothing down. -/
def inputKeepsSearch (env : Env) (s : Session) : Input → Bool
  | .event (.task .closeTeardown) => false
  | i => (s.feed env i).any fun t => (newPath s t).all s.suits

theorem keepsSearch_of_input {i : Input} (h : s.inputKeepsSearch env i = true) :
    s.keepsSearch H env (i.toEvent H) := by
  unfold inputKeepsSearch at h
  split at h
  · cases h
  · rename_i hlive
    obtain ⟨t, hfeed, hsuits⟩ := (Option.any_eq_true ..).mp h
    constructor
    · intro path hpath
      rw [step_of_feed hfeed] at hpath
      rw [hpath] at hsuits
      exact hsuits
    · intro he
      cases i with
      | event e => exact absurd (congrArg Input.event he) hlive
      | stun cid b => cases he

def probedHost : List Input := hostNominated ++ [.stun 6 (peerResponse [2] (Env.lan.txnId 12))]

theorem probed_path_has_mtu :
    let s := (create .lan {} {} true 7).run zeroHmac .lan
      (probedHost.map (·.toEvent zeroHmac))
    s.state = .connected ∧ s.effectiveMtu = 1400 ∧ MtuOfPath s := by
  have hplay : (create .lan {} {} true 7).playAlong .lan (inputKeepsSearch .lan) probedHost =
      true := by decide +kernel
  have hend : ((create .lan {} {} true 7).play .lan probedHost).any (fun s =>
      decide (s.state = .connected) && decide (s.effectiveMtu = 1400)) = true := by decide +kernel
  have hs := run_of_play_any hend zeroHmac
  have hmtu := path_mtu_follows_path _ .lan {} {} true 7 _ rfl
    (along_of_play (H := zeroHmac) (fun _ _ _ h => keepsSearch_of_input h) hplay) _
    (prefix_refl _)
  generalize (create .lan {} {} true 7).run zeroHmac .lan
    (probedHost.map (·.toEvent zeroHmac)) = s at hs hmtu ⊢
  rw [Bool.and_eq_true, decide_eq_true_eq, decide_eq_true_eq] at hs
  exact ⟨hs.1, hs.2, hmtu⟩

/-- The peer of a controlled session acknowledges a probe, then nominates its second address. -/
def movedByPeer : List Input :=
  [.event .gather, .event (.addRemoteCandidates [1] [2] [peerHost, peerHost2] false),
    .stun 7 (peerResponse [2] (Env.lan.txnId 3)), .stun 11 (peerResponse [2] (Env.lan.txnId 4)),
    .stun 7 (peerRequest (be32 0) (Env.lan.txnId 50) true true 9),
    .stun 7 (peerResponse [2] (Env.lan.txnId 14)),
    .stun 11 (peerRequest (be32 0) (Env.lan.txnId 51) true true 9)]

/-- The path MTU in use is neither the configured one nor acknowledged on the path. -/
def mtuFromElsewhere (s : Session) : Bool :=
  decide (s.state = .connected) && s.cfg.pmtuActiveProbing && s.hasCarrier &&
    decide (s.nominatedCid ≠ 0) && decide (s.effectiveMtu ≠ s.cfg.pathMtu) &&
    s.mtuTrials.all fun t => decide (t.path ≠ s.nominatedPath)

/-- No probe was ever sent to the second address; the size that the first one acknowledged stays
in use. -/
theorem moved_session_keeps_old_mtu : ¬ ∃ H : Hmac,
    MtuOfPath ((create .lan {} {} false 7).run H .lan (movedByPeer.map (·.toEvent H))) := by
  rintro ⟨H, h⟩
  have hplay : ((create .lan {} {} false 7).play .lan movedByPeer).any mtuFromElsewhere = true := by
    decide +kernel
  have hbad := run_of_play_any hplay H
  generalize (create .lan {} {} false 7).run H .lan (movedByPeer.map (·.toEvent H)) = s at h hbad
  simp only [mtuFromElsewhere, Bool.and_eq_true, decide_eq_true_eq, all_eq_true] at hbad
  obtain ⟨⟨⟨⟨⟨hc, hprobing⟩, hcar⟩, hcid⟩, hfloor⟩, hpaths⟩ := hbad
  rcases (h hc hprobing hcar hcid).1 with hsame | ⟨t, hmem, hpath, -⟩
  · exact hfloor hsame
  · exact hpaths t hmem hpath

end Session

end LinkIce
