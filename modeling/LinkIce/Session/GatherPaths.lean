import LinkIce.Session.CheckPaths

/-! Paths of the gathering phase. -/
namespace LinkIce
open Stun List

structure Gathers (s t : Session) : Prop where
  core : t.core = { s.core with
    localCandidates := t.localCandidates
    turnGathering := t.turnGathering
    turnServers := t.turnServers
    turnAttemptIdx := t.turnAttemptIdx }

namespace Gathers

variable {s t u : Session}

theorem refl (s : Session) : Gathers s s := ⟨rfl⟩

theorem trans (hst : Gathers s t) (htu : Gathers t u) : Gathers s u := by
  refine ⟨?_⟩
  rw [htu.core, hst.core]

theorem after (htu : Gathers t u) (hst : Gathers s t) : Gathers s u := hst.trans htu

theorem of_works (h : Works Effect.isQuiet s t) : Gathers s t := by
  refine ⟨?_⟩
  rw [h.core, h.localCandidates, h.turnGathering, h.turnServers, h.turnAttemptIdx]
  rfl

theorem of_quiet (h : Quiet s t) : Gathers s t := of_works h.toWorks

theorem foldl {α : Type} {f : Session → α → Session} (hf : ∀ s a, Gathers s (f s a))
    (as : List α) (s : Session) : Gathers s (as.foldl f s) := by
  induction as generalizing s with
  | nil => exact refl s
  | cons a as ih => exact (hf s a).trans (ih (f s a))

theorem state (h : Gathers s t) : t.state = s.state := congrArg Core.state h.core

theorem remoteCandidates (h : Gathers s t) : t.remoteCandidates = s.remoteCandidates :=
  congrArg Core.remoteCandidates h.core

theorem cfg (h : Gathers s t) : t.cfg = s.cfg := congrArg Core.cfg h.core

end Gathers

namespace Session

/-- `on_gathering_complete` would start the checks. -/
def readyToCheck (s : Session) : Prop := s.state = .gathering ∧ s.remoteCandidates ≠ []

def leaveGathering (s : Session) : Session :=
  { s with pendingStunProbes := [], gatherGen := s.gatherGen + 1 }

def settleTurn (s : Session) : Session :=
  ({ s with turnGathering := false, gatherGen := s.gatherGen + 1 } : Session).leaveGathering

def stunSettled (s : Session) : Bool := s.stunGathered || s.cfg.stunServers.isEmpty

variable {env : Env} {A : Set Label} {s t : Session} {c d : Candidate} {type : CandidateType}
  {family : AddressFamily} {addr : Block 16} {localPref : ℕ} {cfg : TurnConfig}

def gatherLabels : Set Label
  | .hosts | .work | .release | .publish => True
  | _ => False

theorem gatherLabels_subset (hh : .hosts ∈ A) (hw : .work ∈ A) (hd : .release ∈ A)
    (hp : .publish ∈ A) : gatherLabels ⊆ A := by
  intro l hl
  cases l with
  | hosts => exact hh
  | work => exact hw
  | release => exact hd
  | publish => exact hp
  | _ => exact hl.elim

theorem steps_work (h : Works Effect.isQuiet s t) (hs : turnStays s.turn t.turn = true)
    (hw : .work ∈ A) : Steps env A s t := .visible (.work h hs) hw

/-- Timers of the gathering phase are outdated on the way. -/
theorem steps_outdated (hf : t.frame = { s.frame with
      gatherGen := t.gatherGen
      turnAllocateGen := t.turnAllocateGen }) (hd : s.draws ≤ t.draws) (hw : .work ∈ A) :
    Steps env A s t := by
  have hturn : t.turn = s.turn := congrArg Frame.turn hf
  exact steps_work (Keeps.outdates hf hd) (hturn ▸ turnStays_refl) hw

theorem pushHost_steps (hc : env.NamesFit → c.Shaped) (hl : c.Listable) (ht : c.type ≠ .relay)
    (hf : c.passes s.cfg.candidateFilter = true) (hh : .hosts ∈ A) :
    Steps env A s (s.pushLocal c) := by
  have hmem {P : Candidate → Prop} (hP : P c) (h : ∀ d ∈ s.localCandidates, P d) :
      ∀ d ∈ s.localCandidates ++ [c], P d := by
    intro d hd
    rcases mem_append.mp hd with hd | hd
    · exact h d hd
    · rwa [mem_singleton.mp hd]
  refine .visible (.hosts s (s.localCandidates ++ [c]) (fun hfit => hmem (hc hfit)) ?_ (hmem hf)
    (hmem hl)) hh
  exact hmem (fun h => absurd h ht) fun d hd hr => any_eq_true.mpr ⟨d, hd, by simpa using hr⟩

theorem pushAllowed_steps (hc : env.NamesFit → c.Shaped)
    (hl : c.Listable) (ht : (if c.type = .hostMdns then .host else c.type) = type)
    (hr : type ≠ .relay)
    (hh : .hosts ∈ A) : Steps env A s (s.pushAllowed c type) := by
  unfold pushAllowed
  split_ifs with ha
  · refine pushHost_steps hc hl (fun h => hr ?_) ?_ hh
    · rw [← ht, h]
      rfl
    · rwa [Candidate.passes, ht]
  · exact .refl s

theorem pushAllowed_gathers : Gathers s (s.pushAllowed c type) := by
  unfold pushAllowed
  split_ifs
  exacts [⟨rfl⟩, .refl s]

theorem bindCarrier_quiet : Quiet s (s.bindCarrier env) := by
  unfold bindCarrier
  split_ifs
  exacts [.silent rfl (Nat.le_succ _), .refl s]

theorem hostCandidate_shaped (hf : ∀ n, family ≠ .other n)
    {port : ℕ} : (hostCandidate family addr port localPref).Shaped where
  type := by simp [hostCandidate]
  family n h := absurd h (hf n)
  hostname := by simp [hostCandidate]

theorem hostCandidate_listable {port : ℕ} : (hostCandidate family addr port localPref).Listable :=
  ⟨by simp [hostCandidate], computePriority_pos (by decide)⟩

/-- The variants differ from the host candidate in their transport. -/
theorem of_mem_tcpVariants (hd : d ∈ tcpVariants c) :
    c.type = .host ∧ ∃ tx, d = { c with transport := tx } := by
  unfold tcpVariants at hd
  split_ifs at hd with hc
  · simp only [mem_cons, not_mem_nil, or_false] at hd
    rcases hd with rfl | rfl | rfl
    all_goals exact ⟨hc.1, _, rfl⟩
  · cases hd

theorem portmapCandidate_own {net : Inet} {ext : Endpoint} : (portmapCandidate net ext).Own := by
  have hset : (Candidate.setAddress net { type := .srflx, port := ext.port } ext.ip).Shaped :=
    setAddress_shaped ⟨by simp, by simp, by simp⟩
  exact ⟨⟨hset.type, hset.family, hset.hostname⟩,
    ⟨bar_notMem_decimal, computePriority_pos (by decide)⟩⟩

theorem gatherInterface_steps {i : Interface} (hh : .hosts ∈ A) :
    Steps env A s (s.gatherInterface i) := by
  unfold gatherInterface
  split
  · exact .refl s
  · split
    · exact pushAllowed_steps (fun _ => hostCandidate_shaped (by simp))
        hostCandidate_listable rfl nofun
          hh
    · split_ifs
      · exact .refl s
      · exact pushAllowed_steps (fun _ => hostCandidate_shaped (by simp))
          hostCandidate_listable rfl nofun
          hh
    · exact .refl s

theorem gatherInterface_gathers (s : Session) (i : Interface) :
    Gathers s (s.gatherInterface i) := by
  unfold gatherInterface
  split
  · exact .refl s
  · split
    · exact pushAllowed_gathers
    · split_ifs
      exacts [.refl s, pushAllowed_gathers]
    · exact .refl s

theorem gatherTcpHostCandidates_steps (hh : .hosts ∈ A) :
    Steps env A s s.gatherTcpHostCandidates := by
  unfold gatherTcpHostCandidates
  split_ifs
  · exact .refl s
  · have hmem {P : Candidate → Prop} (hP : ∀ c tx, P c → P { c with transport := tx })
        (h : ∀ d ∈ s.localCandidates, P d) :
        ∀ d ∈ s.localCandidates ++ s.localCandidates.flatMap tcpVariants, P d := by
      intro d hd
      rcases mem_append.mp hd with hd | hd
      · exact h d hd
      · obtain ⟨c, hc, hcd⟩ := mem_flatMap.mp hd
        obtain ⟨-, tx, rfl⟩ := of_mem_tcpVariants hcd
        exact hP c tx (h c hc)
    refine .visible (.hosts s _ (fun _ => hmem fun _ _ hc => ⟨hc.type, hc.family, hc.hostname⟩)
      (hmem (fun _ _ hc => hc) fun d hd hr => ?_) (hmem fun _ _ hc => hc)
      (hmem fun _ _ hc => ⟨hc.foundation, hc.priority⟩)) hh
    exact any_eq_true.mpr ⟨d, hd, by simpa using hr⟩

theorem gatherTcpHostCandidates_gathers : Gathers s s.gatherTcpHostCandidates := by
  unfold gatherTcpHostCandidates
  split_ifs
  exacts [.refl s, ⟨rfl⟩]

theorem gatherHostCandidates_steps (hh : .hosts ∈ A) :
    Steps env A s (s.gatherHostCandidates env) := by
  unfold gatherHostCandidates
  extract_lets s₁
  have hbind : Steps env A s s₁ := steps_quiet bindCarrier_quiet
  refine hbind.trans ?_
  clear_value s₁
  split_ifs
  · exact .refl _
  · refine Path.after (pushAllowed_steps (fun hfit => ⟨by simp, by simp, ?_⟩)
      ⟨not_mem_nil, computePriority_pos (by decide)⟩ rfl nofun hh)
      (steps_quiet ?_)
    · rw [if_pos rfl]
      exact ⟨append_ne_nil_of_right_ne_nil _ (cons_ne_nil _ _), hfit _⟩
    exact .silent rfl (Nat.le_succ _)
  · split
    · exact steps_quiet (.drawn _)
    · refine Path.trans ?_ (gatherTcpHostCandidates_steps hh)
      exact (steps_quiet (.drawn _)).trans
        (Path.foldl (fun s i => gatherInterface_steps hh) _ _)

theorem gatherHostCandidates_gathers : Gathers s (s.gatherHostCandidates env) := by
  unfold gatherHostCandidates
  extract_lets s₁
  have hbind : Gathers s s₁ := .of_quiet bindCarrier_quiet
  refine hbind.trans ?_
  clear_value s₁
  split_ifs
  · exact .refl _
  · refine Gathers.trans ?_ (pushAllowed_gathers)
    exact .of_quiet (.silent rfl (Nat.le_succ _))
  · split
    · exact .of_quiet (.drawn _)
    · refine Gathers.trans ?_ gatherTcpHostCandidates_gathers
      exact (Gathers.of_quiet (.drawn _)).trans (.foldl gatherInterface_gathers _ _)

theorem gatherPortmap_steps (hh : .hosts ∈ A) : Steps env A s (s.gatherPortmap env) := by
  unfold gatherPortmap
  split_ifs
  · exact .refl s
  · split
    · exact steps_quiet (.drawn s)
    · rename_i ext _
      extract_lets kept u
      have hu : Quiet s u := .silent rfl (Nat.le_succ _)
      have hc : (portmapCandidate env.net ext).Own := portmapCandidate_own
      have ht : (portmapCandidate env.net ext).type = .srflx := setAddress_type
      by_cases hkept : kept = true
      · rw [if_pos hkept]
        have hf : (portmapCandidate env.net ext).passes u.cfg.candidateFilter = true := by
          have ha := (Bool.and_eq_true_iff.mp hkept).2
          rw [ht] at ha
          rw [Candidate.passes, ht]
          exact ha
        refine (steps_quiet hu).trans ((pushHost_steps (fun _ => hc.toShaped) hc.toListable
          (by simp [ht]) hf hh).trans ?_)
        exact steps_quiet (.silent rfl le_rfl)
      · rw [if_neg hkept]
        exact steps_quiet hu

theorem pushLocal_gathers : Gathers s (s.pushLocal c) := ⟨rfl⟩

theorem gatherPortmap_gathers : Gathers s (s.gatherPortmap env) := by
  unfold gatherPortmap
  split_ifs
  · exact .refl s
  · split
    · exact .of_quiet (.drawn s)
    · extract_lets kept u
      have hu : Gathers s u := .of_quiet (.silent rfl (Nat.le_succ _))
      clear_value u
      by_cases hkept : kept = true
      · rw [if_pos hkept]
        exact (hu.trans pushLocal_gathers).trans (.of_quiet (.silent rfl le_rfl))
      · rw [if_neg hkept]
        exact hu

theorem startAllocation_works {c : TurnClient} (h : c.allocated = false) :
    Works Effect.isQuiet s ((({ s.drawn with turn := some c } : Session).turnOutputs env c
      (c.allocate (env.txnId s.draws))).armTurnAllocateTimer) := by
  refine Works.after (armTurnAllocateTimer_works _) ?_
  refine Works.after (turnOutputs_quiet env _ (TurnClient.allocate_requests)).toWorks ?_
  exact .client s _ (Nat.le_succ _) (.idle _ h)

theorem attemptTurn_steps (hw : .work ∈ A) (hr : .release ∈ A) :
    Steps env A s (s.attemptTurn env cfg) := by
  have hnext (s : Session) : Steps env A s s.postNextTurnAttempt :=
    (Path.visible (.gatherFlags s s.stunGathered s.turnGathering s.turnServers
      (s.turnAttemptIdx + 1)) hw).trans (steps_quiet (.post _ trivial))
  unfold attemptTurn
  extract_lets cfg' r
  split
  · exact hnext s
  · refine (steps_quiet (buildTurnClient_quiet env s cfg' false)).trans ?_
    split
    · exact hnext _
    · rename_i hc
      exact .visible (.release (startAllocation_works (buildTurnClient_new env s hc).1)) hr

theorem attemptTurn_gathers : Gathers s (s.attemptTurn env cfg) := by
  unfold attemptTurn
  extract_lets cfg' r
  split
  · exact ⟨rfl⟩
  · refine (Gathers.of_quiet (buildTurnClient_quiet env s cfg' false)).trans ?_
    split
    · exact ⟨rfl⟩
    · rename_i hc
      exact .of_works (startAllocation_works (buildTurnClient_new env s hc).1)

theorem leaveGathering_steps (hp : .publish ∈ A)
    (hr : s.readyToCheck → s.leaveGathering.starts env ⊆ A) :
    Steps env A s.leaveGathering (s.onGatheringComplete env) := by
  refine Path.after (Path.visible (.publish _) hp) ?_
  dsimp only [leaveGathering]
  split_ifs with hg hc
  · exact startChecking_steps (.inl hg) (hr ⟨hg, hc⟩)
  · exact .silent (.waitRemote _ hg)
  · exact .refl _

theorem onGatheringComplete_steps (hw : .work ∈ A) (hp : .publish ∈ A)
    (hr : s.readyToCheck → s.leaveGathering.starts env ⊆ A) :
    Steps env A s (s.onGatheringComplete env) :=
  (leaveGathering_steps hp hr).after (steps_outdated rfl le_rfl hw)

theorem onTurnSettled_steps (hw : .work ∈ A) (hp : .publish ∈ A)
    (hr : s.stunSettled = true → s.readyToCheck → s.settleTurn.starts env ⊆ A) :
    Steps env A s (s.onTurnSettled env) := by
  refine (Path.visible
    (.gatherFlags s s.stunGathered false s.turnServers s.turnAttemptIdx) hw).trans ?_
  unfold onTurnSettled
  dsimp only
  split_ifs with hs
  · exact Path.after (onGatheringComplete_steps hw hp fun h => hr hs h)
      (steps_outdated rfl le_rfl hw)
  · exact .refl _

/-- Give up the current client, without its generation bump. -/
theorem dropTurn_bumped_works (env : Env) (s : Session) :
    Works Effect.isQuiet s
      (dropTurn env { s with turnAllocateGen := s.turnAllocateGen + 1 }) :=
  Works.after (dropTurn_works env _) (Keeps.outdates rfl le_rfl)

theorem tryNextTurnAttempt_steps (hw : .work ∈ A) (hd : .release ∈ A)
    (hp : s.turnServers[s.turnAttemptIdx]? = none → .publish ∈ A)
    (hr : s.turnServers[s.turnAttemptIdx]? = none → s.stunSettled = true → s.readyToCheck →
      (dropTurn env
        { s with turnAllocateGen := s.turnAllocateGen + 1 }).settleTurn.starts env ⊆ A) :
    Steps env A s (s.tryNextTurnAttempt env) := by
  have hq := dropTurn_bumped_works env s
  refine (Path.visible (.release hq) hd).trans ?_
  unfold tryNextTurnAttempt
  dsimp only
  split
  · rename_i hn
    rw [hq.turnServers, hq.turnAttemptIdx] at hn
    refine onTurnSettled_steps hw (hp hn) fun hs hc => hr hn ?_ ?_
    · rwa [stunSettled, hq.stunGathered, hq.cfg] at hs
    · rwa [readyToCheck, hq.state, hq.remoteCandidates] at hc
  · exact attemptTurn_steps hw hd

theorem tryNextTurnAttempt_gathers (h : s.turnServers[s.turnAttemptIdx]? ≠ none) :
    Gathers s (s.tryNextTurnAttempt env) := by
  have hq := dropTurn_bumped_works env s
  refine (Gathers.of_works hq).trans ?_
  unfold tryNextTurnAttempt
  dsimp only
  split
  · rename_i hn
    exact absurd (by rwa [hq.turnServers, hq.turnAttemptIdx] at hn) h
  · exact attemptTurn_gathers

private theorem getElem?_zero_ne_none {α : Type} {l : List α} (h : l ≠ []) : l[0]? ≠ none := by
  simpa using h

theorem gatherRelay_steps (hw : .work ∈ A) (hd : .release ∈ A) :
    Steps env A s (s.gatherRelay env) := by
  unfold gatherRelay
  split
  · exact .refl s
  · extract_lets s₁
    have h₁ : Steps env A s s₁ := by
      dsimp only [s₁]
      split_ifs
      · exact .visible (.gatherFlags s s.stunGathered s.turnGathering _ s.turnAttemptIdx) hw
      · exact .refl s
    refine h₁.trans ?_
    split_ifs with hv
    · exact .refl _
    · have hfirst : s₁.turnServers[0]? ≠ none := getElem?_zero_ne_none hv
      exact Path.after (tryNextTurnAttempt_steps hw hd (absurd · hfirst) (absurd · hfirst))
        (.visible (.gatherFlags s₁ s₁.stunGathered true s₁.turnServers 0) hw)

theorem gatherRelay_gathers : Gathers s (s.gatherRelay env) := by
  unfold gatherRelay
  split
  · exact .refl s
  · extract_lets s₁
    have h₁ : Gathers s s₁ := by
      dsimp only [s₁]
      split_ifs
      exacts [⟨rfl⟩, .refl s]
    refine h₁.trans ?_
    split_ifs with hv
    · exact .refl _
    · exact Gathers.after (tryNextTurnAttempt_gathers (getElem?_zero_ne_none hv)) ⟨rfl⟩

theorem gatherCandidates_steps (hA : gatherLabels ⊆ A) :
    Steps env A s (s.gatherCandidates env) := by
  have hh : .hosts ∈ A := hA trivial
  have hw : .work ∈ A := hA trivial
  have hd : .release ∈ A := hA trivial
  exact (gatherHostCandidates_steps hh).trans
    ((gatherPortmap_steps hh).trans (gatherRelay_steps hw hd))

theorem gatherCandidates_gathers : Gathers s (s.gatherCandidates env) :=
  gatherHostCandidates_gathers.trans (gatherPortmap_gathers.trans gatherRelay_gathers)

/-- `gather` goes on to the checks at once: no STUN server, no TURN allocation in flight,
and the remote candidates are known. -/
def gatherStartsChecks (env : Env) (s : Session) : Prop :=
  s.cfg.stunServers = [] ∧ ((s.setState .gathering).gatherCandidates env).turnGathering = false ∧
    s.remoteCandidates ≠ []

/-- The rest of `gather` after it has stored Gathering. -/
theorem gathering_steps (hA : gatherLabels ⊆ A) (hr : s.gatherStartsChecks env →
      ((s.setState .gathering).gatherCandidates env).leaveGathering.starts env ⊆ A) :
    Steps env A (s.setState .gathering) (s.gather env) := by
  have hgs : Gathers _ ((s.setState .gathering).gatherCandidates env) := gatherCandidates_gathers
  refine (gatherCandidates_steps hA).trans ?_
  unfold gather
  dsimp only
  split_ifs with hs ht
  · exact .refl _
  · refine onGatheringComplete_steps (hA trivial) (hA trivial) fun hc =>
      hr ⟨?_, by simpa using ht, ?_⟩
    · rwa [hgs.cfg] at hs
    · have := hc.2
      rwa [hgs.remoteCandidates] at this
  · exact steps_quiet (.post _ trivial)

theorem gather_steps (hg : .gather (s.state = .failed) ∈ A) (hA : gatherLabels ⊆ A)
    (hr : s.gatherStartsChecks env →
      ((s.setState .gathering).gatherCandidates env).leaveGathering.starts env ⊆ A) :
    Steps env A s (s.gather env) :=
  (Path.visible (.gather s) hg).trans (gathering_steps hA hr)

end Session

end LinkIce
