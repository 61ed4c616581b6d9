import LinkIce.Session.NominationPaths

/-! Paths of the signalling handlers. -/
namespace LinkIce
open Stun

namespace Session

variable {env : Env} {A : Set Label} {s t : Session} {c : Candidate}

/-- The batch announces a restart of the peer. -/
def changesCredentials (s : Session) (ufrag : Bytes) : Prop :=
  s.remoteUfrag ≠ [] ∧ s.remoteUfrag ≠ ufrag

theorem adoptRemoteCredentials_steps (ufrag pwd : Bytes)
    (hf : s.changesCredentials ufrag → .forget ∈ A) :
    Steps env A s (s.adoptRemoteCredentials ufrag pwd) := by
  refine Path.after (.silent (.credentials _ ufrag pwd)) ?_
  split_ifs with hc
  exacts [.visible (.forget s) (hf hc), .refl s]

private theorem mergeRemote_permits {k : TurnClient}
    (hk : k ∈ (if s.turnAllocated then
      s.turnCreatePermission env (c.addressStr env.net) else s).turn)
    (ha : k.allocated = true) : c.addressStr env.net ∈ k.permissions := by
  split_ifs at hk with h
  · rw [turnCreatePermission_turn] at hk
    obtain ⟨k₀, -, rfl⟩ := Option.map_eq_some_iff.mp hk
    exact createPermission_mem
  · have halloc : s.turnAllocated = true := by
      rw [turnAllocated, Option.mem_def.mp hk]
      exact ha
    exact absurd halloc h

theorem mergeRemote_steps (hA : .merge c ∈ A) : Steps env A s (s.mergeRemote env c) := by
  unfold mergeRemote
  split
  · exact .refl s
  · refine Path.after (.visible (.merge _ c fun k hk ha => ?_) hA) (steps_quiet ?_)
    · exact mergeRemote_permits hk ha
    · split_ifs
      exacts [turnCreatePermission_quiet env s _, .refl s]

variable (env) in
theorem foldl_mergeRemote_steps (cs : List Candidate) (hA : ∀ c ∈ cs, .merge c ∈ A) :
    Steps env A s (cs.foldl (mergeRemote env) s) := by
  induction cs generalizing s with
  | nil => exact .refl s
  | cons c cs ih =>
    exact (mergeRemote_steps (hA c (by simp))).trans (ih fun d hd => hA d (by simp [hd]))

theorem resolveRemoteMdnsCandidates_steps (hA : .resolve ∈ A) :
    Steps env A s s.resolveRemoteMdnsCandidates := by
  rw [resolveRemoteMdnsCandidates_eq]
  split_ifs with h
  · exact .visible (.resolve s h) hA
  · exact .refl s

theorem foldl_mergeRemote (env : Env) (cs : List Candidate) (s : Session) :
    (cs.foldl (mergeRemote env) s).state = s.state ∧
      (cs.foldl (mergeRemote env) s).localCandidates = s.localCandidates ∧
      ((cs.foldl (mergeRemote env) s).remoteCandidates = [] ↔
        s.remoteCandidates = [] ∧ cs = []) := by
  induction cs generalizing s with
  | nil => simp
  | cons c cs ih =>
    have hq : Quiet s (if s.turnAllocated then s.turnCreatePermission env (c.addressStr env.net)
        else s) := by
      split_ifs
      exacts [turnCreatePermission_quiet env s _, .refl s]
    obtain ⟨h₁, h₂, h₃⟩ := ih (s.mergeRemote env c)
    rw [List.foldl_cons, h₁, h₂, h₃]
    by_cases hc : s.remoteCandidates.any (sameRemote env.net c)
    · rw [mergeRemote, if_pos hc]
      have : s.remoteCandidates ≠ [] := by
        rintro h
        simp [h] at hc
      simp [this]
    · rw [mergeRemote, if_neg hc]
      exact ⟨hq.state, hq.localCandidates, by simp⟩

/-- The controller commits to a pair when the last candidate is announced. -/
def endOfCandidatesPicks (s : Session) : Prop :=
  s.controlling = true ∧ s.cfg.aggressiveNomination = false ∧ s.nomineeSelected = false

theorem onEndOfCandidates_steps
    (hp : s.endOfCandidatesPicks → (CheckPair.bestValid s.checkList).isSome = true →
      .pick (s.noteEndOfCandidates.pickLeaves env) ∈ A) :
    Steps env A s (s.onEndOfCandidates env) := by
  refine (Path.silent (.noteEnd s)).trans ?_
  unfold onEndOfCandidates
  dsimp only
  split_ifs with h
  · simp only [Bool.and_eq_true, Bool.not_eq_true'] at h
    exact pickNominee_steps h.2 h.1.1 h.1.2 (hp ⟨h.1.1, h.1.2, h.2⟩)
  · exact .refl _

theorem pickNominee_frame :
    (s.pickNominee env).state = s.state ∧ (s.pickNominee env).localCandidates = s.localCandidates ∧
      (s.pickNominee env).remoteCandidates = s.remoteCandidates := by
  unfold pickNominee
  split
  · exact ⟨rfl, rfl, rfl⟩
  · rename_i i _
    have hc := (sendCheck_scheduled env (({ s with nomineeSelected := true } : Session).modifyPair i
      fun p => { p with nomineeCheckSent := true }) i).core
    exact ⟨congrArg Core.state hc, congrArg Core.localCandidates hc,
      congrArg Core.remoteCandidates hc⟩

theorem onEndOfCandidates_frame :
    (s.onEndOfCandidates env).state = s.state ∧
      (s.onEndOfCandidates env).localCandidates = s.localCandidates ∧
      (s.onEndOfCandidates env).remoteCandidates = s.remoteCandidates := by
  unfold onEndOfCandidates
  dsimp only
  split_ifs
  exacts [pickNominee_frame, ⟨rfl, rfl, rfl⟩]

def checksNewCandidates (s : Session) : Prop :=
  ((s.state = .waitingRemote ∨ s.state = .gathering) ∧ s.localCandidates ≠ []) ∨
    s.state = .checking

def candidateStarts (env : Env) (s : Session) : Set Label :=
  if s.state = .checking then s.rechecks env else s.publishAnswer.starts env

theorem candidateStarts_checkLabels : s.candidateStarts env ⊆ checkLabels := by
  unfold candidateStarts
  split_ifs
  exacts [rechecks_checkLabels, starts_checkLabels]

theorem publishAnswer_steps (hp : .publish ∈ A) : Steps env A s s.publishAnswer := by
  unfold publishAnswer
  split_ifs
  · exact .refl s
  · exact Path.after (Path.visible (.publish _) hp) (steps_quiet (.silent rfl le_rfl))

theorem onRemoteCandidates_steps (hm : .resolve ∈ A) (hp : .publish ∈ A)
    (hr : s.remoteCandidates ≠ [] → s.checksNewCandidates → s.candidateStarts env ⊆ A) :
    Steps env A s (s.onRemoteCandidates env) := by
  unfold onRemoteCandidates
  split
  · exact .refl s
  · rename_i hn
    split
    · rename_i hs
      split
      · exact .refl s
      · rename_i hl
        have hst : s.publishAnswer.state = s.state := congrArg Core.state (publishAnswer_core s)
        have hnc : s.state ≠ .checking := by
          rintro h
          simp [h] at hs
        rw [candidateStarts, if_neg hnc] at hr
        refine (publishAnswer_steps hp).trans (startChecking_steps ?_ (hr hn (.inl ⟨hs, hl⟩)))
        rw [hst]
        exact hs.symm.imp_right .inl
    · refine Path.after (resolveRemoteMdnsCandidates_steps hm) ?_
      split
      · rename_i hc
        rw [candidateStarts, if_pos hc] at hr
        exact recheck_steps (hr hn (.inr hc))
      · exact .refl s

def batchRebuilds (s : Session) (ufrag : Bytes) (cands : List Candidate) : Prop :=
  (cands ≠ [] ∨ (¬ s.changesCredentials ufrag ∧ s.remoteCandidates ≠ [])) ∧ s.checksNewCandidates

theorem adoptRemoteCredentials_frame {ufrag pwd : Bytes} :
    (s.adoptRemoteCredentials ufrag pwd).state = s.state ∧
      (s.adoptRemoteCredentials ufrag pwd).localCandidates = s.localCandidates ∧
      ((s.adoptRemoteCredentials ufrag pwd).remoteCandidates = [] ↔
        s.changesCredentials ufrag ∨ s.remoteCandidates = []) := by
  unfold adoptRemoteCredentials changesCredentials
  dsimp only
  split_ifs with h
  · exact ⟨rfl, rfl, by simp [forgetRemote, h]⟩
  · exact ⟨rfl, rfl, by simp [h]⟩

/-- The state in which the rest of `add_remote_candidates` runs. -/
def afterMerge (env : Env) (ufrag pwd : Bytes) (cands : List Candidate) (eoc : Bool)
    (s : Session) : Session :=
  let s := s.adoptRemoteCredentials ufrag pwd
  let s := if eoc then s.onEndOfCandidates env else s
  cands.foldl (mergeRemote env) s

theorem afterMerge_frame (env : Env) (ufrag pwd : Bytes) (cands : List Candidate) (eoc : Bool)
    (s : Session) :
    (s.afterMerge env ufrag pwd cands eoc).state = s.state ∧
      (s.afterMerge env ufrag pwd cands eoc).localCandidates = s.localCandidates ∧
      ((s.afterMerge env ufrag pwd cands eoc).remoteCandidates ≠ [] ↔
        cands ≠ [] ∨ (¬ s.changesCredentials ufrag ∧ s.remoteCandidates ≠ [])) := by
  obtain ⟨h₁, h₂, h₃⟩ := adoptRemoteCredentials_frame
  have hmid : ∀ b : Bool, (if b then (s.adoptRemoteCredentials ufrag pwd).onEndOfCandidates env
      else s.adoptRemoteCredentials ufrag pwd).state = s.state ∧
      (if b then (s.adoptRemoteCredentials ufrag pwd).onEndOfCandidates env
        else s.adoptRemoteCredentials ufrag pwd).localCandidates = s.localCandidates ∧
      ((if b then (s.adoptRemoteCredentials ufrag pwd).onEndOfCandidates env
        else s.adoptRemoteCredentials ufrag pwd).remoteCandidates = [] ↔
        s.changesCredentials ufrag ∨ s.remoteCandidates = []) := by
    intro b
    obtain ⟨g₁, g₂, g₃⟩ := onEndOfCandidates_frame
    cases b with
    | false => exact ⟨h₁, h₂, h₃⟩
    | true => exact ⟨g₁.trans h₁, g₂.trans h₂, by rw [if_pos rfl, g₃, h₃]⟩
  obtain ⟨m₁, m₂, m₃⟩ := hmid eoc
  obtain ⟨f₁, f₂, f₃⟩ := foldl_mergeRemote env cands
    (if eoc then (s.adoptRemoteCredentials ufrag pwd).onEndOfCandidates env
      else s.adoptRemoteCredentials ufrag pwd)
  refine ⟨f₁.trans m₁, f₂.trans m₂, ?_⟩
  rw [afterMerge, ne_eq, f₃, m₃]
  tauto

theorem afterMerge_steps {ufrag pwd : Bytes} {cands : List Candidate} {eoc : Bool}
    (hc : ∀ c ∈ cands, .merge c ∈ A) (hf : s.changesCredentials ufrag → .forget ∈ A)
    (hp : eoc = true → s.endOfCandidatesPicks →
      (CheckPair.bestValid (s.adoptRemoteCredentials ufrag pwd).checkList).isSome = true →
      .pick ((s.adoptRemoteCredentials ufrag pwd).noteEndOfCandidates.pickLeaves env) ∈ A) :
    Steps env A s (s.afterMerge env ufrag pwd cands eoc) := by
  refine Path.trans ?_ (foldl_mergeRemote_steps env cands hc)
  refine (adoptRemoteCredentials_steps ufrag pwd hf).trans ?_
  split_ifs with he
  · refine onEndOfCandidates_steps fun h hv => hp he ?_ hv
    unfold adoptRemoteCredentials endOfCandidatesPicks at h
    dsimp only at h
    split_ifs at h <;> exact h
  · exact .refl _

theorem addRemoteCandidates_steps (ufrag pwd : Bytes) (cands : List Candidate) (eoc : Bool)
    (hm : .resolve ∈ A) (hb : .publish ∈ A) (hc : ∀ c ∈ cands, .merge c ∈ A)
    (hf : s.changesCredentials ufrag → .forget ∈ A)
    (hp : eoc = true → s.endOfCandidatesPicks →
      (CheckPair.bestValid (s.adoptRemoteCredentials ufrag pwd).checkList).isSome = true →
      .pick ((s.adoptRemoteCredentials ufrag pwd).noteEndOfCandidates.pickLeaves env) ∈ A)
    (hr : s.batchRebuilds ufrag cands →
      (s.afterMerge env ufrag pwd cands eoc).candidateStarts env ⊆ A) :
    Steps env A s (s.addRemoteCandidates env ufrag pwd cands eoc) := by
  obtain ⟨h₁, h₂, h₃⟩ := afterMerge_frame env ufrag pwd cands eoc s
  refine (afterMerge_steps hc hf hp).trans (onRemoteCandidates_steps hm hb fun hn hc =>
    hr ⟨h₃.mp hn, ?_⟩)
  rwa [checksNewCandidates, h₁, h₂] at hc

def descriptionStartsChecks (s : Session) : Prop :=
  (s.state = .waitingRemote ∨ s.state = .gathering) ∧ s.localCandidates ≠ []

def describeRemote (ufrag pwd : Bytes) (cands : List Candidate) (s : Session) : Session :=
  { s with remoteUfrag := ufrag, remotePwd := pwd, remoteCandidates := cands }

theorem setRemote_steps {ufrag pwd : Bytes} {cands : List Candidate} (hm : .resolve ∈ A)
    (hs : .restate (s.remotesStray env cands) cands ∈ A)
    (hr : s.descriptionStartsChecks → (s.describeRemote ufrag pwd cands).starts env ⊆ A) :
    Steps env A s (s.setRemote env ufrag pwd cands) := by
  refine Path.after (resolveRemoteMdnsCandidates_steps hm) ?_
  refine (Path.silent (.credentials s ufrag pwd)).trans
    ((Path.visible (.restate _ cands) hs).trans ?_)
  split_ifs with h
  · exact startChecking_steps (h.1.symm.imp_right .inl) (hr h)
  · exact .refl _

def flagsRebuild (s : Session) (symmetric : Bool) : Prop :=
  s.peerSymmetric ≠ symmetric ∧ s.state = .checking ∧ s.remoteCandidates ≠ [] ∧
    s.localCandidates ≠ []

theorem setPeerSignalFlags_steps {symmetric : Bool}
    (hr : s.flagsRebuild symmetric →
      ({ s with peerSymmetric := symmetric } : Session).rechecks env ⊆ A) :
    Steps env A s (s.setPeerSignalFlags env symmetric) := by
  unfold setPeerSignalFlags
  dsimp only
  split_ifs with h
  · refine Path.after (recheck_steps (hr ?_)) (steps_quiet (.silent rfl le_rfl))
    exact ⟨by simpa using h.1, h.2⟩
  · exact steps_quiet (.silent rfl le_rfl)

/-- The answer belongs to a slot that still waits for it and holds an address. -/
def mdnsAnswers (s : Session) (idx : ℕ) (hostname : Bytes) (r : MdnsResolveResult) : Prop :=
  s.state ≠ .failed ∧ (∃ slot, s.remoteCandidates[idx]? = some slot ∧ slot.type = .hostMdns ∧
    slot.hostname = hostname) ∧ r.resolved = true ∧ ¬ (r.ipv4 = [] ∧ r.ipv6 = [])

def resolvedStarts (env : Env) (s : Session) : Set Label :=
  if s.state = .checking then s.rechecks env else s.starts env

theorem resolvedStarts_checkLabels : s.resolvedStarts env ⊆ checkLabels := by
  unfold resolvedStarts
  split_ifs
  exacts [rechecks_checkLabels, starts_checkLabels]

theorem checkResolved_steps (hr : s.checksNewCandidates → s.resolvedStarts env ⊆ A) :
    Steps env A s (s.checkResolved env) := by
  unfold checkResolved
  split
  · rename_i hs
    split
    · exact .refl s
    · rename_i hl
      have hnc : s.state ≠ .checking := by
        rintro h
        simp [h] at hs
      rw [resolvedStarts, if_neg hnc] at hr
      exact startChecking_steps (hs.symm.imp_right .inl) (hr (.inl ⟨hs, hl⟩))
  · split
    · rename_i hc
      rw [resolvedStarts, if_pos hc] at hr
      exact recheck_steps (hr (.inr hc))
    · exact .refl s

/-- The remote candidates once the name is resolved or has turned out to be unknown. -/
def resolvedRemotes (env : Env) (idx : ℕ) (slot : Candidate) (r : MdnsResolveResult)
    (s : Session) : List Candidate :=
  if !r.resolved ∨ (r.ipv4 = [] ∧ r.ipv6 = []) then
    s.remoteCandidates.set idx { slot with type := .host, hostname := [] }
  else (s.foldResolved env idx slot r).remoteCandidates

def awaitingSlot (idx : ℕ) (hostname : Bytes) (s : Session) : Option Candidate :=
  if s.state = .failed then none
  else s.remoteCandidates[idx]?.filter fun slot => slot.type = .hostMdns ∧ slot.hostname = hostname

theorem onMdnsResolved_steps {idx : ℕ} {hostname : Bytes} {r : MdnsResolveResult}
    (hs : ∀ slot ∈ s.awaitingSlot idx hostname,
      .restate (s.remotesStray env (s.resolvedRemotes env idx slot r))
        (s.resolvedRemotes env idx slot r) ∈ A)
    (hr : s.mdnsAnswers idx hostname r → s.checksNewCandidates →
      ∀ slot ∈ s.remoteCandidates[idx]?,
        (s.foldResolved env idx slot r).resolvedStarts env ⊆ A) :
    Steps env A s (s.onMdnsResolved env idx hostname r) := by
  unfold onMdnsResolved
  split
  · exact .refl s
  · rename_i hf
    split
    · exact .refl s
    · rename_i slot hslot
      split
      · exact .refl s
      · rename_i hm
        simp only [ne_eq, not_or, not_not] at hm
        have hwait : slot ∈ s.awaitingSlot idx hostname := by
          rw [awaitingSlot, if_neg hf, hslot]
          exact Option.filter_eq_some_iff.mpr ⟨rfl, by simpa using hm⟩
        have hA := hs slot hwait
        unfold resolvedRemotes at hA
        split
        · rename_i hn
          rw [if_pos hn] at hA
          exact .visible (.restate s _) hA
        · rename_i hn
          rw [if_neg hn] at hA
          simp only [Bool.not_eq_true', not_or, Bool.not_eq_false] at hn
          refine (Path.visible (.restate s _) hA).trans (checkResolved_steps fun hc => ?_)
          exact hr ⟨hf, ⟨slot, hslot, hm.1, hm.2⟩, hn.1, hn.2⟩ hc slot hslot

end Session

end LinkIce
