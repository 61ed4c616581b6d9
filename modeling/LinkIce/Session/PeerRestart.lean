import LinkIce.Session.ConsentExchange

/-! What a session makes of the signal that its peer sends after an ICE restart. -/
namespace LinkIce
open Stun List

/-- The action brings in no candidate of the peer but these. -/
def Label.bringsOnly (cands : List Candidate) : Label → Prop
  | .merge c => c ∈ cands
  | .restate _ _ | .trigger _ _ _ => False
  | _ => True

namespace Session

variable {env : Env} {A : Set Label} {s t u : Session} {cands : List Candidate}
  {ufrag pwd : Bytes} {eoc : Bool} {e : Effect}

/-! ### Pairs with the new candidates -/

/-- Every pair leads to one of the candidates, perhaps to another port of it. -/
def PairsWith (cands : List Candidate) (s : Session) : Prop :=
  ∀ p ∈ s.checkList, ∃ c ∈ cands, ∃ port, p.rem.bare = { c.bare with port := port }

structure KnowsOnly (cands : List Candidate) (s : Session) : Prop where
  remotes : ∀ r ∈ s.remoteCandidates, ∃ c ∈ cands, r.bare = c.bare
  pairs : s.PairsWith cands

namespace KnowsOnly

theorem same (h : s.KnowsOnly cands) (hr : t.remoteCandidates = s.remoteCandidates)
    (hp : t.checkList = s.checkList) : t.KnowsOnly cands :=
  ⟨hr ▸ h.remotes, fun p => hp ▸ h.pairs p⟩

theorem of_core (h : s.KnowsOnly cands) (hc : t.core = s.core) : t.KnowsOnly cands :=
  h.same (congrArg Core.remoteCandidates hc) (congrArg Core.checkList hc)

theorem nothing (hr : s.remoteCandidates = []) (hp : s.checkList = []) : s.KnowsOnly cands :=
  ⟨by simp [hr], by simp [PairsWith, hp]⟩

theorem evolve {R : CheckPair → CheckPair → Prop} (h : s.KnowsOnly cands)
    (hr : t.remoteCandidates = s.remoteCandidates) (hR : ∀ p q, R p q → q.rem = p.rem)
    (hp : List.Forall₂ R s.checkList t.checkList) : t.KnowsOnly cands := by
  refine ⟨hr ▸ h.remotes, fun q hq => ?_⟩
  obtain ⟨p, hpm, hpq⟩ := exists_left_of_mem hp hq
  rw [hR p q hpq]
  exact h.pairs p hpm

theorem modify (h : s.KnowsOnly cands) (i : ℕ) {f : CheckPair → CheckPair}
    (hf : ∀ p, (f p).rem = p.rem) : (s.modifyPair i f).KnowsOnly cands :=
  h.evolve rfl (fun _ _ he => he)
    (forall₂_modify (R := fun p q : CheckPair => q.rem = p.rem) (fun _ => rfl) hf s.checkList i)

theorem rebuild (env : Env) (h : s.KnowsOnly cands) : (s.buildCheckList env).KnowsOnly cands := by
  have hbare (r : Candidate) (hr : r ∈ s.remoteCandidates.map (·.withFoundation env.net)) :
      ∃ c ∈ cands, r.bare = c.bare := by
    obtain ⟨r', hr', rfl⟩ := mem_map.mp hr
    rw [Candidate.bare_withFoundation]
    exact h.remotes r' hr'
  refine ⟨?_, fun q hq => ?_⟩
  · obtain ⟨_, _, _, heq⟩ := buildCheckList_eq
    rw [heq]
    exact hbare
  · obtain ⟨-, -, r, hr, -, -, port, fnd, hrem⟩ := mem_buildCheckList env s hq
    obtain ⟨c, hc, hrc⟩ := hbare r hr
    refine ⟨c, hc, port, ?_⟩
    rw [hrem, ← hrc]
    rfl

theorem act {l : Option Label} (h : s.KnowsOnly cands) (hact : Act env s l t)
    (hl : ∀ a ∈ l, a.bringsOnly cands) : t.KnowsOnly cands := by
  have hreset (u : Session) (ht : t = u.reset env) : t.KnowsOnly cands := by
    obtain ⟨n, -, hc⟩ := reset_core env u
    subst ht
    exact .nothing (congrArg Core.remoteCandidates hc) (congrArg Core.checkList hc)
  cases hact with
  | quiet hk | work hk | release hk | deliver hk | turnInput hk => exact h.of_core hk.core
  | rebuild => exact h.rebuild env
  | check i | liteCheck i =>
    exact h.evolve (congrArg Core.remoteCandidates (sendCheck_scheduled env s i).core)
      (fun _ _ he => he.rem) (sendCheck_scheduled env s i).checkList
  | repaint ps hp => exact h.evolve rfl (fun _ _ he => (CheckPair.Evolves.of_repaints he).rem) hp
  | pick =>
    unfold pickNominee
    split
    · exact h
    · rename_i i _
      have hsel : ({ s with nomineeSelected := true } : Session).KnowsOnly cands := h.same rfl rfl
      have hflag := hsel.modify i (f := fun p => { p with nomineeCheckSent := true }) fun _ => rfl
      exact hflag.evolve (congrArg Core.remoteCandidates (sendCheck_scheduled env _ i).core)
        (fun _ _ he => he.rem) (sendCheck_scheduled env _ i).checkList
  | succeed i p =>
    have hmark := h.modify i (f := fun p => { p with valid := true, state := .succeeded }) fun _ =>
      rfl
    exact hmark.evolve rfl (fun _ _ he => (CheckPair.Evolves.of_repaints he).rem)
      (CheckPair.unfreezeSiblings_repaints p.loc.foundation p.rem.foundation _)
  | respond | reject => exact h.of_core (reply_core _ _ _ _ s)
  | defer i =>
    have hmark : (s.markPendingNomination i).KnowsOnly cands := h.modify i fun _ => rfl
    exact hmark.same rfl rfl
  | nominateDeferred i =>
    have hmark := h.modify i (f := fun p => { p with pendingNomination := false }) fun _ => rfl
    exact hmark.same rfl rfl
  | merge c =>
    have hc : c ∈ cands := hl _ rfl
    refine ⟨fun r hr => ?_, h.pairs⟩
    rcases mem_append.mp hr with hr | hr
    · exact h.remotes r hr
    · rw [mem_singleton.mp hr]
      exact ⟨c, hc, rfl⟩
  | restate | trigger => exact (hl _ rfl).elim
  | forget => exact .nothing rfl rfl
  | restart => exact hreset s rfl
  | autoRestart now => exact hreset _ rfl
  | _ => exact h.same rfl rfl

theorem steps (h : s.KnowsOnly cands) (hsteps : Steps env A s t)
    (hA : ∀ a ∈ A, a.bringsOnly cands) : t.KnowsOnly cands :=
  hsteps.invariant (I := KnowsOnly cands)
    (fun hl hact hu => hu.act hact fun a ha => hA a (hl a ha)) h

end KnowsOnly

theorem checkLabels_bringsOnly {a : Label} (h : a ∈ checkLabels) : a.bringsOnly cands := by
  cases a with
  | merge | restate | trigger => exact h.elim
  | _ => trivial

theorem addRemoteCandidates_knowsOnly (hc : s.changesCredentials ufrag) :
    (s.addRemoteCandidates env ufrag pwd cands eoc).KnowsOnly cands := by
  have hforget : (s.adoptRemoteCredentials ufrag pwd).KnowsOnly cands := by
    unfold adoptRemoteCredentials
    dsimp only
    rw [if_pos (show s.remoteUfrag ≠ [] ∧ s.remoteUfrag ≠ ufrag from hc)]
    exact .nothing rfl rfl
  unfold addRemoteCandidates
  generalize s.adoptRemoteCredentials ufrag pwd = r at hforget
  have hend : (if eoc then r.onEndOfCandidates env else r).KnowsOnly cands := by
    split_ifs
    · exact hforget.steps (A := { a | a.bringsOnly cands })
        (onEndOfCandidates_steps fun _ _ => trivial) fun _ ha => ha
    · exact hforget
  have hmerge := hend.steps (A := { a | a.bringsOnly cands })
    (foldl_mergeRemote_steps env cands fun c hc => hc) fun _ ha => ha
  exact hmerge.steps (A := { a | a.bringsOnly cands }) (onRemoteCandidates_steps trivial trivial
    fun _ _ _ ha => checkLabels_bringsOnly (candidateStarts_checkLabels ha)) fun _ ha => ha

theorem onGatheringComplete_knowsOnly (h : s.KnowsOnly cands) :
    (s.onGatheringComplete env).KnowsOnly cands :=
  h.steps (A := { a | a.bringsOnly cands }) (onGatheringComplete_steps trivial trivial
    fun _ _ ha => checkLabels_bringsOnly (starts_checkLabels ha)) fun _ ha => ha

/-! ### What is announced -/

theorem mem_logged (hs : s.log <:+ u.log) (ht : e :: u.log <:+ t.log) : e ∈ logged s t := by
  obtain ⟨old, hold⟩ := hs
  obtain ⟨new, hnew⟩ := ht
  have hlog : t.log = (new ++ e :: old) ++ s.log := by
    rw [← hnew, ← hold]
    simp
  rw [logged_eq hlog]
  simp

theorem Logs.mem_logged {P : Effect → Prop} (h : Logs P s t) (he : e ∈ logged s t) : P e := by
  obtain ⟨new, hn, hP⟩ := h
  rw [logged_eq hn] at he
  exact hP e he

theorem startChecking_logs (env : Env) (s : Session) :
    .setState .checking :: s.log <:+ (s.startChecking env).log := by
  have hpath : Steps env Set.univ (s.setState .checking) (s.startChecking env) :=
    beginChecks_rebuilt_steps (Set.mem_univ _) fun _ _ => Set.mem_univ _
  exact steps_log_suffix hpath

theorem steps_credentials (h : Steps env A s t) (hA : .restart ∉ A) :
    t.localUfrag = s.localUfrag ∧ t.localPwd = s.localPwd := by
  refine h.invariant (I := fun u => u.localUfrag = s.localUfrag ∧ u.localPwd = s.localPwd)
    (fun hl hact hu => ?_) ⟨rfl, rfl⟩
  obtain ⟨h₁, h₂⟩ := act_credentials hact fun hr => hA (hl _ hr)
  exact ⟨h₁.trans hu.1, h₂.trans hu.2⟩

def answersBatch (s : Session) : Prop :=
  (s.state = .waitingRemote ∨ s.state = .gathering) ∧ s.localCandidates ≠ [] ∧
    s.controlling = false

theorem onRemoteCandidates_unpublished (h : ¬ s.answersBatch) :
    Logs (·.isPublication = false) s (s.onRemoteCandidates env) := by
  have hresolve (u : Session) :
      Logs (·.isPublication = false) u u.resolveRemoteMdnsCandidates := by
    have hpath : Steps env { a | a = .resolve } u u.resolveRemoteMdnsCandidates :=
      resolveRemoteMdnsCandidates_steps rfl
    exact steps_unpublished hpath nofun
  unfold onRemoteCandidates
  split_ifs with hn hs hl
  · exact .refl s
  · exact .refl s
  · have hctl : s.controlling = true := by
      by_contra hc
      exact h ⟨hs, hl, Bool.eq_false_of_not_eq_true hc⟩
    rw [publishAnswer, if_pos hctl]
    exact steps_unpublished (A := checkLabels)
      (startChecking_steps (hs.symm.imp_right .inl) starts_checkLabels) id
  · have hcheck : Logs (·.isPublication = false) s (s.recheck env) :=
      steps_unpublished (A := checkLabels) (recheck_steps rechecks_checkLabels) id
    exact hcheck.trans (hresolve _)
  · exact hresolve s

/-- What the signal of a restarted peer should lead to: only pairs with the new candidates, the
Checking state, and a signal with the session's own credentials. -/
structure Rejoined (cands : List Candidate) (s t : Session) : Prop where
  pairs : t.PairsWith cands
  checks : t.state = .checking ∨ .setState .checking ∈ logged s t
  answers : ∃ d, .onGathered d ∈ logged s t ∧ d.ufrag = s.localUfrag ∧ d.pwd = s.localPwd

/-- The session rejoins at once, or when the gathering completes that it is in. -/
def Rejoins (env : Env) (ufrag pwd : Bytes) (cands : List Candidate) (eoc : Bool) (s : Session) :
    Prop :=
  Rejoined cands s (s.addRemoteCandidates env ufrag pwd cands eoc) ∨
    (s.state = .gathering ∧ Rejoined cands s
      ((s.addRemoteCandidates env ufrag pwd cands eoc).onGatheringComplete env))

theorem Rejoined.not_unpublished (h : Rejoined cands s t) :
    ¬ Logs (·.isPublication = false) s t := by
  intro hlogs
  obtain ⟨d, hd, -⟩ := h.answers
  cases hlogs.mem_logged hd

/-- The labels of the first part of the handler. -/
theorem afterMerge_frame_steps (env : Env) (ufrag pwd : Bytes) (cands : List Candidate) (eoc : Bool)
    (s : Session) : Steps env { a | a ≠ .publish ∧ a ≠ .flip ∧ a ≠ .restart } s
      (s.afterMerge env ufrag pwd cands eoc) :=
  afterMerge_steps (fun _ _ => ⟨nofun, nofun, nofun⟩)
    (fun _ => ⟨nofun, nofun, nofun⟩) fun _ _ _ => ⟨nofun, nofun, nofun⟩

variable (env ufrag pwd cands eoc) in
theorem answersBatch_afterMerge :
    (s.afterMerge env ufrag pwd cands eoc).answersBatch ↔ s.answersBatch := by
  obtain ⟨hst, hloc, -⟩ := afterMerge_frame env ufrag pwd cands eoc s
  have hctl : (s.afterMerge env ufrag pwd cands eoc).controlling = s.controlling :=
    steps_controlling (afterMerge_frame_steps env ufrag pwd cands eoc s) fun h => h.2.1 rfl
  rw [answersBatch, hst, hloc, hctl, answersBatch]

theorem addRemoteCandidates_unpublished (h : ¬ s.answersBatch) :
    Logs (·.isPublication = false) s (s.addRemoteCandidates env ufrag pwd cands eoc) := by
  have hmerge := steps_unpublished (afterMerge_frame_steps env ufrag pwd cands eoc s)
    fun h => h.1 rfl
  exact hmerge.trans (onRemoteCandidates_unpublished fun hb =>
    h ((answersBatch_afterMerge ..).mp hb))

theorem onGatheringComplete_announces :
    ∃ d v, d.ufrag = s.localUfrag ∧ d.pwd = s.localPwd ∧ s.log <:+ (v : Session).log ∧
      .onGathered d :: v.log = (s.onGatheringComplete env).log := by
  have hpath : Steps env { a | a ≠ .restart } s (s.onGatheringComplete env) := by
    refine onGatheringComplete_steps nofun nofun fun _ a ha => ?_
    rintro rfl
    exact starts_checkLabels ha
  obtain ⟨hufrag, hpwd⟩ := steps_credentials hpath fun h => h rfl
  have hgrows (v : Session) : v.log <:+ (v.startChecking env).log :=
    (suffix_cons _ _).trans (startChecking_logs env v)
  refine ⟨_, _, hufrag, hpwd, ?_, rfl⟩
  dsimp only
  split_ifs
  · exact hgrows s.leaveGathering
  · exact suffix_cons _ _
  · exact suffix_refl _

theorem publishAnswer_log (h : s.controlling = false) :
    s.publishAnswer.log = .onGathered s.localDescription :: s.log := by
  rw [publishAnswer, if_neg (by simp [h])]
  rfl

theorem publishAnswer_log_suffix (s : Session) : s.log <:+ s.publishAnswer.log := by
  cases hc : s.controlling with
  | true => rw [publishAnswer, if_pos hc]
  | false =>
    rw [publishAnswer_log hc]
    exact suffix_cons _ _

theorem addRemoteCandidates_starts (hne : cands ≠ [])
    (hst : s.state = .waitingRemote ∨ s.state = .gathering) (hloc : s.localCandidates ≠ []) :
    s.addRemoteCandidates env ufrag pwd cands eoc =
      ((s.afterMerge env ufrag pwd cands eoc).publishAnswer).startChecking env := by
  obtain ⟨hstate, hlocal, hremote⟩ := afterMerge_frame env ufrag pwd cands eoc s
  have hfull := hremote.mpr (.inl hne)
  change (s.afterMerge env ufrag pwd cands eoc).onRemoteCandidates env = _
  rw [onRemoteCandidates, if_neg hfull, hstate, if_pos hst, hlocal, if_neg hloc]

theorem addRemoteCandidates_waits (hst : s.state = .waitingRemote ∨ s.state = .gathering)
    (hloc : s.localCandidates = []) :
    s.addRemoteCandidates env ufrag pwd cands eoc = s.afterMerge env ufrag pwd cands eoc := by
  obtain ⟨hstate, hlocal, -⟩ := afterMerge_frame env ufrag pwd cands eoc s
  change (s.afterMerge env ufrag pwd cands eoc).onRemoteCandidates env = _
  rw [onRemoteCandidates, hstate, if_pos hst, hlocal, if_pos hloc, ite_self]

theorem rejoined_of_answersBatch (hs : s.changesCredentials ufrag) (hne : cands ≠ [])
    (h : s.answersBatch) : Rejoined cands s (s.addRemoteCandidates env ufrag pwd cands eoc) := by
  have hsteps := afterMerge_frame_steps env ufrag pwd cands eoc s
  have hgrows := steps_log_suffix hsteps
  obtain ⟨hufrag, hpwd⟩ := steps_credentials hsteps fun h => h.2.2 rfl
  have hpub := publishAnswer_log ((answersBatch_afterMerge env cands ufrag pwd eoc).mpr h).2.2
  have hstart := startChecking_logs env (s.afterMerge env ufrag pwd cands eoc).publishAnswer
  rw [← addRemoteCandidates_starts hne h.1 h.2.1, hpub] at hstart
  refine ⟨(addRemoteCandidates_knowsOnly hs).pairs, .inr ?_, _,
    mem_logged hgrows ((suffix_cons _ _).trans hstart), hufrag, hpwd⟩
  rw [← hpub] at hstart
  exact mem_logged (hgrows.trans (publishAnswer_log_suffix _)) hstart

/-- A session that gathers checks, and it answers when it has finished. -/
theorem rejoined_of_gathering (hs : s.changesCredentials ufrag) (hne : cands ≠ [])
    (h : s.state = .gathering) : Rejoined cands s
      ((s.addRemoteCandidates env ufrag pwd cands eoc).onGatheringComplete env) := by
  have hpath : Steps env { a | a ≠ .restart } s
      (s.addRemoteCandidates env ufrag pwd cands eoc) := by
    refine addRemoteCandidates_steps ufrag pwd cands eoc nofun nofun (fun _ _ => nofun)
      (fun _ => nofun) (fun _ _ _ => nofun) fun _ a ha => ?_
    rintro rfl
    exact candidateStarts_checkLabels ha
  have hgrows := steps_log_suffix hpath
  obtain ⟨hufrag, hpwd⟩ := steps_credentials hpath fun h => h rfl
  obtain ⟨d, v, hdu, hdp, hv, hd⟩ :=
    onGatheringComplete_announces
  refine ⟨(onGatheringComplete_knowsOnly (addRemoteCandidates_knowsOnly hs)).pairs, .inr ?_,
    d, mem_logged (hgrows.trans hv) (hd ▸ suffix_refl _), hdu.trans hufrag, hdp.trans hpwd⟩
  have hmerged := steps_log_suffix (afterMerge_frame_steps env ufrag pwd cands eoc s)
  by_cases hloc : s.localCandidates = []
  · rw [addRemoteCandidates_waits (.inr h) hloc]
    obtain ⟨hstate, -, hremote⟩ := afterMerge_frame env ufrag pwd cands eoc s
    have hfull := hremote.mpr (.inl hne)
    generalize s.afterMerge env ufrag pwd cands eoc = u at hmerged hstate hfull
    have hleave : u.onGatheringComplete env = (u.leaveGathering.startChecking env).onGathered := by
      unfold onGatheringComplete
      dsimp only
      rw [if_pos (hstate.trans h), if_pos hfull]
      rfl
    rw [hleave]
    exact mem_logged hmerged ((startChecking_logs env u.leaveGathering).trans (suffix_cons _ _))
  · have hstart := startChecking_logs env (s.afterMerge env ufrag pwd cands eoc).publishAnswer
    rw [← addRemoteCandidates_starts hne (.inr h) hloc] at hstart
    refine mem_logged (hmerged.trans (publishAnswer_log_suffix _)) (hstart.trans (hv.trans ?_))
    exact hd ▸ suffix_cons _ _

theorem not_rejoined_of_log_eq (h : t.log = s.log) : ¬ Rejoined cands s t := fun hr =>
  hr.not_unpublished (.of_log_eq h)

variable (env pwd eoc) in
/-- A signal without candidates is not acted on. -/
theorem addRemoteCandidates_nil (hs : s.changesCredentials ufrag) :
    (s.addRemoteCandidates env ufrag pwd [] eoc).log = s.log ∧
      (s.addRemoteCandidates env ufrag pwd [] eoc).state = s.state ∧
      (s.addRemoteCandidates env ufrag pwd [] eoc).remoteCandidates = [] := by
  have hforget : (s.adoptRemoteCredentials ufrag pwd).log = s.log ∧
      (s.adoptRemoteCredentials ufrag pwd).state = s.state ∧
      (s.adoptRemoteCredentials ufrag pwd).remoteCandidates = [] ∧
      (s.adoptRemoteCredentials ufrag pwd).checkList = [] := by
    unfold adoptRemoteCredentials
    dsimp only
    rw [if_pos (show s.remoteUfrag ≠ [] ∧ s.remoteUfrag ≠ ufrag from hs)]
    exact ⟨rfl, rfl, rfl, rfl⟩
  unfold addRemoteCandidates
  generalize s.adoptRemoteCredentials ufrag pwd = r at hforget
  obtain ⟨hlog, hstate, hremote, hpairs⟩ := hforget
  have hend : r.onEndOfCandidates env = r.noteEndOfCandidates := by
    unfold onEndOfCandidates pickNominee
    simp [noteEndOfCandidates, hpairs, CheckPair.bestValid]
  have hstop (u : Session) (hu : u.remoteCandidates = []) : u.onRemoteCandidates env = u := by
    rw [onRemoteCandidates, if_pos hu]
  dsimp only [foldl_nil]
  cases eoc with
  | false =>
    rw [if_neg Bool.false_ne_true, hstop r hremote]
    exact ⟨hlog, hstate, hremote⟩
  | true =>
    rw [if_pos rfl, hend, hstop r.noteEndOfCandidates hremote]
    exact ⟨hlog, hstate, hremote⟩

private theorem not_rejoined_nil (hs : s.changesCredentials ufrag) (hg : s.state = .gathering) :
    ¬ Rejoined [] s ((s.addRemoteCandidates env ufrag pwd [] eoc).onGatheringComplete env) := by
  obtain ⟨hlog, hstate, hremote⟩ :=
    addRemoteCandidates_nil env pwd eoc hs
  generalize s.addRemoteCandidates env ufrag pwd [] eoc = u at hlog hstate hremote
  have hleave : u.onGatheringComplete env =
      (u.leaveGathering.setState .waitingRemote).onGathered := by
    unfold onGatheringComplete
    dsimp only
    rw [if_pos (hstate.trans hg), if_neg (not_not.mpr hremote)]
    rfl
  intro h
  have hlogs : Logs (· ≠ .setState .checking) s (u.onGatheringComplete env) := by
    rw [hleave]
    exact (Logs.of_log_eq (t := u.leaveGathering) hlog).trans
      ((Logs.emit u.leaveGathering (by simp)).trans (.emit _ (by simp)))
  rcases h.checks with hc | hc
  · rw [hleave] at hc
    cases hc
  · exact hlogs.mem_logged hc rfl

/-- The signal of a restarted peer has the effect it needs only while the session gathers, or
waits as the controlled one with candidates of its own. -/
theorem rejoins_iff (env : Env) (s : Session) (ufrag pwd : Bytes) (cands : List Candidate)
    (eoc : Bool) (hs : s.changesCredentials ufrag) :
    s.Rejoins env ufrag pwd cands eoc ↔ cands ≠ [] ∧ (s.state = .gathering ∨
      (s.state = .waitingRemote ∧ s.controlling = false ∧ s.localCandidates ≠ [])) := by
  constructor
  · intro h
    constructor
    · rintro rfl
      rcases h with h | ⟨hg, h⟩
      · exact not_rejoined_of_log_eq (addRemoteCandidates_nil _ _ _ hs).1 h
      · exact not_rejoined_nil hs hg h
    · rcases h with h | ⟨hg, -⟩
      · by_contra hn
        refine h.not_unpublished (addRemoteCandidates_unpublished fun hb => hn ?_)
        exact hb.1.symm.imp_right fun hw => ⟨hw, hb.2.2, hb.2.1⟩
      · exact .inl hg
  · rintro ⟨hne, hg | ⟨hw, hc, hl⟩⟩
    · exact .inr ⟨hg, rejoined_of_gathering hs hne hg⟩
    · exact .inl (rejoined_of_answersBatch hs hne ⟨.inl hw, hl, hc⟩)

def awaitingPeer : Session :=
  (create .lan {} {} false 7).run zeroHmac .lan
    [.gather, .addRemoteCandidates [1] [2] [] false]

theorem awaitingPeer_rejoins : awaitingPeer.changesCredentials [3] ∧
    awaitingPeer.Rejoins .lan [3] [4] [peerHost] false := by
  have hnew : awaitingPeer.remoteUfrag ≠ [] ∧ awaitingPeer.remoteUfrag ≠ [3] := by decide +kernel
  have hwaits : awaitingPeer.state = .waitingRemote ∧ awaitingPeer.controlling = false ∧
      awaitingPeer.localCandidates ≠ [] := by decide +kernel
  exact ⟨hnew, (rejoins_iff .lan awaitingPeer [3] [4] [peerHost] false hnew).mpr
    ⟨by simp, .inr hwaits⟩⟩

def published (s : Session) : Option LocalDescription :=
  s.log.findSome? fun
    | .onGathered d => some d
    | _ => none

end Session

namespace Peers

open Session

def restarted : List PeerInput := connecting ++ [.act .left .restart]

/-- A connected session hears of the new credentials of its peer and keeps silent. -/
theorem restart_unanswered :
    ¬ ∃ H : Hmac,
      let d := (partners.movesOf H Env.lanPair restarted).foldl (move H Env.lanPair) partners
      ∀ sig ∈ (d.agent .left).published, sig.ufrag = (d.agent .left).localUfrag →
        (d.agent .right).changesCredentials sig.ufrag →
        (d.agent .right).Rejoins (Env.lanPair .right) sig.ufrag sig.pwd sig.candidates false := by
  rintro ⟨H, h⟩
  have hplay : (partners.play Env.lanPair restarted).any (fun d => decide
      ((d.agent .right).state = .connected ∧ (d.agent .left).published.any fun sig =>
        decide (sig.ufrag = (d.agent .left).localUfrag ∧ (d.agent .right).remoteUfrag ≠ [] ∧
          (d.agent .right).remoteUfrag ≠ sig.ufrag))) = true := by decide +kernel
  have hall := of_decide_eq_true (run_of_play_any hplay H)
  dsimp only at h
  generalize (partners.movesOf H Env.lanPair restarted).foldl (move H Env.lanPair) partners = d
    at h hall
  obtain ⟨hstate, hsig⟩ := hall
  obtain ⟨sig, hmem, hsig⟩ := (Option.any_eq_true _ _).mp hsig
  obtain ⟨hown, hchanged⟩ := of_decide_eq_true hsig
  have hnot : ¬ (d.agent .right).answersBatch := by
    rintro ⟨hw | hg, -⟩
    · rw [hstate] at hw
      cases hw
    · rw [hstate] at hg
      cases hg
  rcases h sig hmem hown hchanged with hr | ⟨hg, -⟩
  · exact hr.not_unpublished (addRemoteCandidates_unpublished hnot)
  · rw [hstate] at hg
    cases hg

end Peers

end LinkIce
