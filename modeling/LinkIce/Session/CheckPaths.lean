import LinkIce.Session.History
import LinkIce.Session.Passes

/-! Paths of the check machinery, and what a rebuilt list looks like. -/
namespace LinkIce
open Stun List

namespace Candidate

variable {net : Inet} {c : Candidate}

@[simp] theorem withFoundation_transport : (c.withFoundation net).transport = c.transport := by
  unfold withFoundation
  split_ifs <;> rfl

@[simp] theorem withFoundation_hostname : (c.withFoundation net).hostname = c.hostname := by
  unfold withFoundation
  split_ifs <;> rfl

end Candidate

namespace CheckPair

/-- A pair on which nothing has happened yet. -/
structure Fresh (p : CheckPair) : Prop where
  valid : p.valid = false
  nomineeCheckSent : p.nomineeCheckSent = false
  pendingNomination : p.pendingNomination = false

theorem Fresh.awaitingNomination {p : CheckPair} (h : p.Fresh) : p.awaitingNomination = false := by
  simp [CheckPair.awaitingNomination, h.nomineeCheckSent]

theorem mem_initialStates {seen : List Bytes} {ps : List CheckPair} {q : CheckPair}
    (hq : q ∈ initialStates seen ps) :
    ∃ p ∈ ps, q = { p with state := q.state } ∧ (q.state = .waiting ∨ q.state = .frozen) := by
  induction ps generalizing seen with
  | nil => simp [initialStates] at hq
  | cons p ps ih =>
    simp only [initialStates] at hq
    split_ifs at hq with hs
    all_goals
      rcases mem_cons.mp hq with rfl | hq
      · exact ⟨p, by simp, rfl, by simp⟩
      · obtain ⟨p', hp', h⟩ := ih hq
        exact ⟨p', by simp [hp'], h⟩

theorem initialStates_map {α : Type*} (f : CheckPair → α)
    (hf : ∀ p st, f { p with state := st } = f p) (seen : List Bytes) (ps : List CheckPair) :
    (initialStates seen ps).map f = ps.map f := by
  induction ps generalizing seen with
  | nil => rfl
  | cons p ps ih =>
    rw [initialStates]
    split
    · rw [map_cons, hf, ih, map_cons]
    · rw [map_cons, hf, ih, map_cons]

theorem not_unresolved_of_admissible {l r : Candidate} (h : admissible l r = true) :
    ¬ (r.type = .hostMdns ∧ r.hostname ≠ []) := by
  simp only [admissible, Bool.and_eq_true, Bool.not_eq_true', Bool.and_eq_false_iff,
    decide_eq_false_iff_not] at h
  rintro ⟨ht, hh⟩
  rcases h.1.1.2 with hn | hn
  · exact hn ht
  · exact hn hh

@[simp] theorem admissible_withFoundation {net : Inet} {l r : Candidate} :
    admissible (l.withFoundation net) (r.withFoundation net) = admissible l r := by
  simp [admissible]

end CheckPair

namespace Session

variable (env : Env) (s : Session) {p q : CheckPair}

/-- The pair of a list that has just been built: nothing has been written to it but what the
construction itself writes. -/
def BuiltOf (controlling : Bool) (p : CheckPair) : Prop :=
  ∃ l r, p = { CheckPair.ofCandidates controlling l r with
    rem := p.rem, priority := p.priority, txnId := p.txnId, state := p.state }

private theorem candidatePairs_builtOf : ∀ p ∈ s.candidatePairs, BuiltOf s.controlling p := by
  intro p hp
  obtain ⟨l, -, hp⟩ := mem_flatMap.mp hp
  obtain ⟨r, -, hp⟩ := mem_flatMap.mp hp
  refine ⟨l, r, ?_⟩
  dsimp only at hp
  split_ifs at hp
  · rcases mem_cons.mp hp with rfl | hp
    · rfl
    · obtain ⟨port, -, rfl⟩ := mem_map.mp hp
      rfl
  · rw [mem_singleton.mp hp]
  · cases hp

private theorem fillCheckList_builtOf (hp : p ∈ (s.fillCheckList env).checkList) :
    BuiltOf s.controlling p ∧ (p.state = .waiting ∨ p.state = .frozen) := by
  obtain ⟨q, hq, hpq, hs⟩ := CheckPair.mem_initialStates hp
  obtain ⟨⟨q', k⟩, hq', rfl⟩ := mem_map.mp ((mem_insertionSort _).mp hq)
  obtain ⟨l, r, h⟩ := candidatePairs_builtOf s q' (fst_mem_of_mem_zipIdx hq')
  refine ⟨⟨l, r, ?_⟩, hs⟩
  rw [hpq, h]

theorem fillCheckList_fresh (hp : p ∈ (s.fillCheckList env).checkList) :
    p.Fresh ∧ (p.state = .waiting ∨ p.state = .frozen) := by
  obtain ⟨⟨l, r, h⟩, hs⟩ := fillCheckList_builtOf env s hp
  refine ⟨?_, hs⟩
  rw [h]
  exact ⟨rfl, rfl, rfl⟩

private theorem mem_candidatePairs (h : q ∈ s.candidatePairs) :
    ∃ l ∈ s.localCandidates, ∃ r ∈ s.remoteCandidates, CheckPair.admissible l r = true ∧
      q.loc = l ∧ ∃ port fnd, q.rem = { r with port := port, foundation := fnd } := by
  obtain ⟨l, hl, h⟩ := mem_flatMap.mp h
  obtain ⟨r, hr, h⟩ := mem_flatMap.mp h
  dsimp only at h
  by_cases ha : CheckPair.admissible l r = true
  · rw [if_pos ha] at h
    refine ⟨l, hl, r, hr, ha, ?_⟩
    split_ifs at h
    · rcases mem_cons.mp h with rfl | h
      · exact ⟨rfl, r.port, r.foundation, rfl⟩
      · obtain ⟨port, -, rfl⟩ := mem_map.mp h
        exact ⟨rfl, port, _, rfl⟩
    · obtain rfl := mem_singleton.mp h
      exact ⟨rfl, r.port, r.foundation, rfl⟩
  · rw [if_neg ha] at h
    cases h

private theorem mem_fillCheckList (h : q ∈ (s.fillCheckList env).checkList) :
    ∃ l ∈ s.localCandidates, ∃ r ∈ s.remoteCandidates, CheckPair.admissible l r = true ∧
      q.loc = l ∧ ∃ port fnd, q.rem = { r with port := port, foundation := fnd } := by
  obtain ⟨p, hp, hpq, -⟩ := CheckPair.mem_initialStates h
  obtain ⟨⟨p', n⟩, hp', rfl⟩ := mem_map.mp ((mem_insertionSort _).mp hp)
  have horigin := mem_candidatePairs s (fst_mem_of_mem_zipIdx hp')
  rw [hpq]
  exact horigin

theorem mem_buildCheckList (h : q ∈ (s.buildCheckList env).checkList) :
    ∃ l ∈ s.localCandidates.map (·.withFoundation env.net),
      ∃ r ∈ s.remoteCandidates.map (·.withFoundation env.net), CheckPair.admissible l r = true ∧
        q.loc = l ∧ ∃ port fnd, q.rem = { r with port := port, foundation := fnd } :=
  mem_fillCheckList env _ h

/-- A rebuild forgets everything that happened on the pairs. -/
theorem buildCheckList_fresh (hp : p ∈ (s.buildCheckList env).checkList) :
    p.Fresh ∧ (p.state = .waiting ∨ p.state = .frozen) :=
  fillCheckList_fresh env _ hp

theorem underway_rebuilt (hp : p ∈ (s.buildCheckList env).checkList) :
    ({ s.buildCheckList env with currentCheck := 0 } : Session).underway env = true := by
  refine any_eq_true.mpr ⟨p, hp, ?_⟩
  rcases (buildCheckList_fresh env s hp).2 with h | h <;> simp [CheckPair.isPending, timedOut, h]

/-- No candidate of ours can be paired with one of the peer's. -/
def Pairless (s : Session) : Prop :=
  ∀ l ∈ s.localCandidates, ∀ r ∈ s.remoteCandidates, CheckPair.admissible l r = false

instance : DecidablePred Pairless := fun s =>
  inferInstanceAs (Decidable (∀ l ∈ s.localCandidates, ∀ r ∈ s.remoteCandidates, _))

private theorem candidatePairs_eq_nil_iff : s.candidatePairs = [] ↔ s.Pairless := by
  unfold candidatePairs Pairless
  simp only [flatMap_eq_nil_iff]
  refine forall₂_congr fun l _ => forall₂_congr fun r _ => ?_
  split_ifs with ha hr <;> simp [ha]

/-- A rebuilt list is empty just if no two candidates can be paired. -/
theorem buildCheckList_eq_nil_iff : (s.buildCheckList env).checkList = [] ↔ s.Pairless := by
  have hfill (u : Session) : (u.fillCheckList env).checkList = [] ↔ u.candidatePairs = [] := by
    have hlen : (u.fillCheckList env).checkList.length = u.candidatePairs.length := by
      rw [← length_map (f := CheckPair.txnId), fillCheckList,
        CheckPair.initialStates_map _ fun _ _ => rfl, length_map, length_insertionSort]
      simp [CheckPair.drawTxnIds]
    rw [← length_eq_zero_iff, hlen, length_eq_zero_iff]
  refine (hfill _).trans ((candidatePairs_eq_nil_iff _).trans ?_)
  change (∀ l ∈ s.localCandidates.map (·.withFoundation env.net),
    ∀ r ∈ s.remoteCandidates.map (·.withFoundation env.net), _) ↔ _
  simp only [forall_mem_map, CheckPair.admissible_withFoundation, Pairless]

/-- Nor is any of them being checked. -/
theorem buildCheckList_idle : (s.buildCheckList env).inProgressCount = 0 := by
  refine countP_eq_zero.mpr fun p hp => ?_
  rcases (buildCheckList_fresh env s hp).2 with h | h
  all_goals simp [h]

section paths

variable {env s} {A : Set Label} {t u : Session}

theorem steps_quiet (h : Quiet s t) : Steps env A s t := .silent (.quiet h)

theorem failPair_steps (i : ℕ) : Steps env A s (s.failPair i) := by
  have hcalm := CheckPair.Calms.countP_le (failPair_calms s i)
  obtain ⟨ps, hs, hps⟩ := failPair_repaints s i
  rw [hs] at hcalm ⊢
  exact .silent (.repaint s ps hps (hcalm.trans (le_max_right _ _)))

theorem sendCheck_steps {i : ℕ} (hl : s.cfg.liteMode = true → .liteCheck ∈ A) :
    Steps env A s (s.sendCheck env i) := by
  cases h : s.cfg.liteMode with
  | false => exact .silent (.check s i h)
  | true => exact .visible (.liteCheck s i h) (hl h)

theorem ticks_steps (h : Ticks env s t) (hl : s.cfg.liteMode = true → .liteCheck ∈ A) :
    Steps env A s t := by
  induction h with
  | refl => exact .refl s
  | @tail u _ hu ht ih =>
    have hcfg : u.cfg = s.cfg := (Ticks.scheduled hu).cfg
    cases ht with
    | repaint ps h hs hc => exact ih.trans (.silent (.repaint _ ps h hc))
    | read => exact ih.trans (steps_quiet (.drawn _))
    | check i => exact ih.trans (sendCheck_steps (hcfg ▸ hl))

theorem armNominationWait_steps (hc : s.controlling = false) :
    Steps env A s s.armNominationWait := by
  refine (Path.silent (.armWait s hc)).trans (steps_quiet ?_)
  unfold armNominationWait
  dsimp only
  split_ifs
  exacts [.queues rfl le_rfl trivial, .refl _]

/-- A controlled session with a valid pair that has not waited for USE-CANDIDATE yet. -/
def mayWait (s : Session) : Bool :=
  !s.controlling && !s.nominationWaitArmed && decide (0 < s.cfg.nominationWaitMs) &&
    s.checkList.any (·.valid)

theorem mayWait_scheduled (h : Scheduled s t) : t.mayWait = s.mayWait := by
  have hvalid : t.checkList.any (·.valid) = s.checkList.any (·.valid) := by
    rw [Bool.eq_iff_iff, any_eq_true, any_eq_true]
    constructor
    · rintro ⟨q, hq, hv⟩
      obtain ⟨p, hp, he⟩ := exists_left_of_mem h.checkList hq
      exact ⟨p, hp, he.valid ▸ hv⟩
    · rintro ⟨p, hp, hv⟩
      obtain ⟨q, hq, he⟩ := exists_right_of_mem h.checkList hp
      exact ⟨q, hq, he.valid.trans hv⟩
  have harmed : t.nominationWaitArmed = s.nominationWaitArmed :=
    congrArg Core.nominationWaitArmed h.core
  rw [mayWait, mayWait, hvalid, h.controlling, h.cfg, harmed]

theorem checksExhausted_steps (h : s.state = .checking)
    (hp : ∀ p ∈ s.checkList, p.isPending = false)
    (hA : s.mayWait = false → .exhaust s ∈ A) : Steps env A s s.checksExhausted := by
  unfold checksExhausted
  rw [if_neg (by simp [h])]
  split_ifs with hw
  · refine armNominationWait_steps ?_
    simp only [Bool.and_eq_true, Bool.not_eq_true'] at hw
    exact hw.1.1.1
  · exact .visible (.exhaust s h hp) (hA (Bool.eq_false_iff.mpr hw))

theorem checksExhausted_core (s : Session) :
    s.checksExhausted.core = { s.core with
      state := s.checksExhausted.state
      nominationWaitArmed := s.checksExhausted.nominationWaitArmed } := by
  unfold checksExhausted armNominationWait
  split_ifs
  · rfl
  · dsimp only
    split_ifs <;> rfl
  · rfl

/-- A tick may end the checks, and otherwise it touches the list only. -/
theorem runNextCheck_core (env : Env) (s : Session) :
    (s.runNextCheck env).core = { s.core with
      state := (s.runNextCheck env).state
      checkList := (s.runNextCheck env).checkList
      nominationWaitArmed := (s.runNextCheck env).nominationWaitArmed } := by
  have hp := (checkPasses_scheduled env s).core
  unfold runNextCheck
  split_ifs
  · rfl
  · dsimp only
    generalize (s.checkPasses env).2 = t at hp ⊢
    split_ifs
    · have hq := (armCheckTimer_quiet t).core
      generalize t.armCheckTimer = u at hq ⊢
      rw [show u.state = t.state from congrArg Core.state hq,
        show u.checkList = t.checkList from congrArg Core.checkList hq,
        show u.nominationWaitArmed = t.nominationWaitArmed from
          congrArg Core.nominationWaitArmed hq, hq, hp]
      exact congrArg (fun c : Core => { s.core with
        state := c.state
        checkList := c.checkList
        nominationWaitArmed := c.nominationWaitArmed }) hp.symm
    · have hx := checksExhausted_core t
      rw [show t.checksExhausted.checkList = t.checkList from congrArg Core.checkList hx, hx, hp]

/-- A tick does not make pairs succeed. -/
theorem runNextCheck_evolves (env : Env) (s : Session) :
    List.Forall₂ CheckPair.Evolves s.checkList (s.runNextCheck env).checkList := by
  unfold runNextCheck
  split_ifs
  · exact forall₂_refl CheckPair.Evolves.refl _
  · have hp := (checkPasses_scheduled env s).checkList
    dsimp only
    split_ifs
    · rwa [(armCheckTimer_quiet _).checkList]
    · rwa [show (checksExhausted _).checkList = _ from
        congrArg Core.checkList (checksExhausted_core _)]

def givesUp (env : Env) (s u : Session) : Prop :=
  s.state = .checking ∧ s.underway env = false ∧ s.mayWait = false ∧ u = (s.checkPasses env).2

/-- A tick finds the list exhausted while the follow-up check is outstanding. -/
def abandonsNominee (env : Env) (s : Session) : Prop :=
  s.state = .checking ∧ s.controlling = true ∧ s.underway env = false ∧
    ∃ p ∈ s.checkList, p.awaitingNomination = true

theorem runNextCheck_steps (hA : ∀ u, s.givesUp env u → .exhaust u ∈ A)
    (hl : s.cfg.liteMode = true → s.state = .checking → .liteCheck ∈ A) :
    Steps env A s (s.runNextCheck env) := by
  unfold runNextCheck
  split_ifs with h
  · exact .refl s
  · have hs := not_not.mp h
    have hsch := checkPasses_scheduled env s
    refine (ticks_steps (checkPasses_ticks env s) fun h => hl h hs).trans ?_
    dsimp only
    split_ifs with hp
    · exact steps_quiet (armCheckTimer_quiet _)
    · have hp' : (s.checkPasses env).1 = false := by simpa using hp
      refine checksExhausted_steps (hsch.state.trans hs) (checkPasses_exhausted env s hp') ?_
      rw [mayWait_scheduled hsch]
      exact fun hw => hA _ ⟨hs, checkPasses_fst.symm.trans hp', hw, rfl⟩

def beginGivesUp (env : Env) (s u : Session) : Prop :=
  s.cfg.liteMode = false ∧ (s.preFire env s.indices false false).givesUp env u

theorem preFire_idle_ticks (env : Env) (h : s.inProgressCount = 0) :
    Ticks env s (s.preFire env s.indices false false) :=
  preFire_ticks env s _ _ _ (by rw [h]; decide)

theorem beginChecks_steps (h : s.inProgressCount = 0)
    (hA : ∀ u, s.beginGivesUp env u → .exhaust u ∈ A) : Steps env A s (s.beginChecks env) := by
  unfold beginChecks
  split_ifs with hl
  · exact .refl s
  · have hticks := preFire_idle_ticks env h
    refine (ticks_steps hticks (absurd · hl)).trans
      (runNextCheck_steps (fun u hu => hA u ⟨by simpa using hl, hu⟩) fun hlite => ?_)
    rw [hticks.scheduled.cfg] at hlite
    exact absurd hlite hl

/-- A new list is built, and the scheduler may give it up at once. -/
def rechecks (env : Env) (s : Session) : Set Label
  | .rebuild => True
  | .exhaust u => s.state = .checking ∧ s.Pairless ∧
      u = ({ s.buildCheckList env with currentCheck := 0 }.checkPasses env).2
  | .liteCheck => s.cfg.liteMode = true ∧ s.state = .checking
  | _ => False

def starts (env : Env) (s : Session) : Set Label
  | .rebuild => True
  | .exhaust u => ((s.setState .checking).buildCheckList env).beginGivesUp env u
  | _ => False

def checkLabels : Set Label
  | .rebuild | .exhaust _ | .liteCheck => True
  | _ => False

theorem subset_of_checkLabels {B : Set Label} (hB : B ⊆ checkLabels) (hr : .rebuild ∈ A)
    (hx : ∀ u, .exhaust u ∈ B → .exhaust u ∈ A) (hl : .liteCheck ∈ B → .liteCheck ∈ A) :
    B ⊆ A := by
  intro l h
  cases l with
  | rebuild => exact hr
  | exhaust u => exact hx u h
  | liteCheck => exact hl h
  | _ => exact (hB h).elim

theorem rechecks_checkLabels : s.rechecks env ⊆ checkLabels := by
  intro l hl
  cases l with
  | rebuild | exhaust | liteCheck => trivial
  | _ => exact hl.elim

theorem starts_checkLabels : s.starts env ⊆ checkLabels := by
  intro l hl
  cases l with
  | rebuild | exhaust => trivial
  | _ => exact hl.elim

/-- A start runs no check in a lite session. -/
theorem starts_subset (hr : .rebuild ∈ A) (hx : ∀ u, .exhaust u ∈ s.starts env → .exhaust u ∈ A) :
    s.starts env ⊆ A := subset_of_checkLabels starts_checkLabels hr hx fun h => h.elim

theorem rebuild_mem_rechecks : Label.rebuild ∈ s.rechecks env := trivial

theorem rebuild_mem_starts : Label.rebuild ∈ s.starts env := trivial

theorem recheck_steps (hr : s.rechecks env ⊆ A) : Steps env A s (s.recheck env) := by
  refine (Path.visible (.rebuild s) (hr rebuild_mem_rechecks)).trans ?_
  have hcore := buildCheckList_core env s
  refine Path.trans (steps_quiet (.silent rfl le_rfl)) (runNextCheck_steps ?_ ?_)
  · rintro u ⟨hst, hidle, -, rfl⟩
    have hnone : s.Pairless := by
      by_contra hpairs
      obtain ⟨p, hp⟩ := exists_mem_of_ne_nil _ (mt (buildCheckList_eq_nil_iff env s).mp hpairs)
      exact Bool.eq_false_iff.mp hidle (underway_rebuilt env s hp)
    exact hr (a := .exhaust _) ⟨(congrArg Core.state hcore).symm.trans hst, hnone, rfl⟩
  · intro hlite hst
    exact hr (a := .liteCheck) ⟨(congrArg (·.cfg.liteMode) hcore).symm.trans hlite,
      (congrArg Core.state hcore).symm.trans hst⟩

def Untried (s : Session) : Prop := ∀ p ∈ s.checkList, p.Fresh

theorem Untried.scheduled (h : s.Untried) (hst : Scheduled s t) : t.Untried := by
  intro q hq
  obtain ⟨p, hp, he⟩ := exists_left_of_mem hst.checkList hq
  have hf := h p hp
  exact ⟨he.valid.trans hf.valid, he.nomineeCheckSent.trans hf.nomineeCheckSent,
    he.pendingNomination.trans hf.pendingNomination⟩

theorem buildCheckList_untried (env : Env) (s : Session) : (s.buildCheckList env).Untried :=
  fun _ hp => (buildCheckList_fresh env s hp).1

theorem givesUp_scheduled (h : s.givesUp env u) : Scheduled s u := by
  obtain ⟨-, -, -, rfl⟩ := h
  exact checkPasses_scheduled env s

theorem beginGivesUp_scheduled (hs : s.inProgressCount = 0)
    (h : s.beginGivesUp env u) : Scheduled s u :=
  (preFire_idle_ticks env hs).scheduled.trans (givesUp_scheduled h.2)

/-- The list that is given up right after a rebuild is untried. -/
theorem rechecks_untried (h : .exhaust u ∈ s.rechecks env) :
    u.Untried ∧ u.remoteEndOfCandidates = s.remoteEndOfCandidates := by
  have hs : Scheduled { s.buildCheckList env with currentCheck := 0 } u :=
    h.2.2 ▸ checkPasses_scheduled env _
  refine ⟨Untried.scheduled (buildCheckList_untried env s) hs, ?_⟩
  exact (congrArg Core.remoteEndOfCandidates hs.core).trans
    (congrArg Core.remoteEndOfCandidates (buildCheckList_core env s))

theorem starts_untried (h : .exhaust u ∈ s.starts env) :
    u.Untried ∧ u.remoteEndOfCandidates = s.remoteEndOfCandidates := by
  have hs := beginGivesUp_scheduled (buildCheckList_idle env (s.setState .checking)) h
  refine ⟨(buildCheckList_untried env _).scheduled hs, ?_⟩
  exact (congrArg Core.remoteEndOfCandidates hs.core).trans
    (congrArg Core.remoteEndOfCandidates (buildCheckList_core env (s.setState .checking)))

/-- The rest of a start once Checking has been entered. -/
theorem beginChecks_rebuilt_steps (hr : .rebuild ∈ A)
    (hx : ∀ u, (s.buildCheckList env).beginGivesUp env u → .exhaust u ∈ A) :
    Steps env A s ((s.buildCheckList env).beginChecks env) :=
  (Path.visible (.rebuild s) hr).trans (beginChecks_steps (buildCheckList_idle env s) hx)

theorem startChecking_steps
    (h : s.state = .gathering ∨ s.state = .waitingRemote ∨ s.state = .connected)
    (hr : s.starts env ⊆ A) : Steps env A s (s.startChecking env) :=
  (Path.visible (.startChecking s h) (hr rebuild_mem_starts)).trans
    (beginChecks_rebuilt_steps (hr rebuild_mem_starts) fun u hu => hr (a := .exhaust u) hu)

theorem flipRole_steps (hf : .flip ∈ A)
    (hr : s.state = .checking → s.localCandidates ≠ [] → s.remoteCandidates ≠ [] →
      ({ s with controlling := !s.controlling } : Session).rechecks env ⊆ A) :
    Steps env A s (s.flipRole env) := by
  refine (Path.visible (.flip s) hf).trans ?_
  unfold flipRole
  dsimp only
  split_ifs with h
  exacts [recheck_steps (hr h.1 h.2.1 h.2.2), .refl _]

theorem pickNominee_steps (hn : s.nomineeSelected = false) (hc : s.controlling = true)
    (ha : s.cfg.aggressiveNomination = false)
    (hp : (CheckPair.bestValid s.checkList).isSome = true → .pick (s.pickLeaves env) ∈ A) :
    Steps env A s (s.pickNominee env) := by
  by_cases hv : (CheckPair.bestValid s.checkList).isSome = true
  · exact .visible (.pick s hn hc ha hv) (hp hv)
  · have : CheckPair.bestValid s.checkList = none := by simpa using hv
    rw [pickNominee, this]
    exact .refl s

theorem onTcpConnectTimeout_steps (cid : Cid) (h : .rxBuffers ∈ A) :
    Steps env A s (s.onTcpConnectTimeout env cid) := by
  unfold onTcpConnectTimeout
  split
  · exact .refl s
  · split_ifs
    · exact .refl s
    · refine Path.trans ?_ (Path.foldl (fun s i => ?_) _ _)
      · have hrx : Steps env A s { s with tcpRxBuffers := s.tcpRxBuffers.erase cid } :=
          .visible (.rxBuffers s _) h
        exact hrx.trans (steps_quiet (.silent rfl le_rfl))
      · unfold failTimedOutPair
        split
        · exact .refl s
        · split_ifs
          exacts [failPair_steps i, .refl s]

end paths

end Session

end LinkIce
