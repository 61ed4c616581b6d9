import LinkIce.Session.RelayLinks

/-! Permissions at the TURN server. Two sweeps ask for them, when the allocation arrives and
when the peer signals a candidate, while checks go through whatever client is in use. -/
namespace LinkIce
open Stun List Option

theorem Candidate.addressStr_readable {net : Inet} (hnet : net.RoundTrips) {c : Candidate}
    (h : ¬ (c.type = .hostMdns ∧ c.hostname ≠ [])) : net.readable (c.addressStr net) = true := by
  unfold addressStr
  rw [if_neg h]
  split_ifs
  · simp [Inet.readable, hnet.v4]
  · simp [Inet.readable, hnet.v6]

namespace CheckPair

variable {p q : CheckPair}

structure SamePath (p q : CheckPair) : Prop where
  loc : q.loc = p.loc
  rem : q.rem = p.rem
  transportType : q.transportType = p.transportType

theorem SamePath.refl (p : CheckPair) : SamePath p p := ⟨rfl, rfl, rfl⟩

theorem SamePath.of_evolves (h : Evolves p q) : SamePath p q :=
  ⟨h.loc, h.rem, h.transportType⟩

theorem SamePath.of_repaints (h : Repaints p q) : SamePath p q :=
  .of_evolves (.of_repaints h)

end CheckPair

/-- The action may leave the relay without a permission that its checks need. -/
def Label.strays : Label → Bool
  | .deliver strays _ | .takeover strays | .restate strays _ | .trigger _ strays _ => strays
  | _ => false

namespace TurnClient

variable {net : Inet} {k k₀ : TurnClient} {cs : List Candidate} {p : CheckPair}

theorem coversPair_iff : k.coversPair net p = true ↔
    (p.loc.type = .relay → transportIsTcp p.transportType = false →
      p.rem.addressStr net ∈ k.permissions ∧ net.readable (p.rem.addressStr net) = true) := by
  unfold coversPair permits
  by_cases hl : p.loc.type = .relay <;> cases ht : transportIsTcp p.transportType <;> simp [hl]

theorem coversPair_mono {p q : CheckPair} (hsub : k₀.permissions ⊆ k.permissions)
    (hq : CheckPair.SamePath p q) (h : k₀.coversPair net p = true) :
    k.coversPair net q = true := by
  rw [coversPair_iff] at h ⊢
  rw [hq.loc, hq.rem, hq.transportType]
  intro hl ht
  obtain ⟨hmem, hread⟩ := h hl ht
  exact ⟨hsub hmem, hread⟩

theorem coversAll_iff : k.coversAll net cs = true ↔ ∀ c ∈ cs, c.addressStr net ∈ k.permissions := by
  simp [coversAll]

theorem coversAll_mono (hsub : k₀.permissions ⊆ k.permissions)
    (h : k₀.coversAll net cs = true) : k.coversAll net cs = true :=
  coversAll_iff.mpr fun c hc => hsub (coversAll_iff.mp h c hc)

end TurnClient

namespace Session

variable {H : Hmac} {env : Env} {s t : Session} {k : TurnClient} {P : Effect → Bool} {e : Event}
  {i : ℕ} {net : Inet} {cs : List Candidate}

theorem coveredBy_iff : s.coveredBy env k = true ↔
    (∀ p ∈ s.checkList, k.coversPair env.net p = true) ∧
      (s.hasRelayCandidate = true → k.coversAll env.net s.remoteCandidates = true) := by
  cases h : s.hasRelayCandidate <;> simp [coveredBy, h]

/-- Every check through the relay went out after its permission had been asked for, with an
address that the server can read. -/
def RelayChecksPermitted (env : Env) (s : Session) : Prop :=
  ∀ r ∈ s.relayChecks, r.1.ip ∈ r.2 ∧ env.net.readable r.1.ip = true

/-- Moreover the client in use could send every check of the list and of a rebuilt one. -/
structure RelayCovered (env : Env) (s : Session) : Prop where
  client : ∀ k ∈ s.turn, k.allocated = true → s.coveredBy env k = true
  checks : s.RelayChecksPermitted env

/-- `t` asks the relay for no more than `s` does. -/
structure Narrows (env : Env) (s t : Session) : Prop where
  turn : TurnCarried s.turn t.turn
  pairs : ∀ q ∈ t.checkList, ∃ p ∈ s.checkList, CheckPair.SamePath p q
  relay : t.hasRelayCandidate = true → s.hasRelayCandidate = true
  remotes : ∀ k : TurnClient, k.coversAll env.net s.remoteCandidates = true →
    k.coversAll env.net t.remoteCandidates = true

namespace Narrows

variable {ps : List CheckPair}

theorem client (h : Narrows env s t) (hs : s.RelayCovered env) :
    ∀ k ∈ t.turn, k.allocated = true → t.coveredBy env k = true := by
  intro k hk ha
  obtain ⟨k₀, hk₀, ha₀, hsub⟩ := h.turn k hk ha
  obtain ⟨hpairs, hall⟩ := coveredBy_iff.mp (hs.client k₀ hk₀ ha₀)
  refine coveredBy_iff.mpr ⟨fun q hq => ?_, fun hr => ?_⟩
  · obtain ⟨p, hp, hpq⟩ := h.pairs q hq
    exact TurnClient.coversPair_mono hsub hpq (hpairs p hp)
  · exact TurnClient.coversAll_mono hsub (h.remotes k₀ (hall (h.relay hr)))

theorem covered (h : Narrows env s t) (hc : t.relayChecks = s.relayChecks)
    (hs : s.RelayCovered env) : t.RelayCovered env where
  client := h.client hs
  checks := by
    unfold RelayChecksPermitted
    rw [hc]
    exact hs.checks

theorem of_same (ht : TurnCarried s.turn t.turn) (hp : t.checkList = s.checkList)
    (hl : t.localCandidates = s.localCandidates) (hr : t.remoteCandidates = s.remoteCandidates) :
    Narrows env s t where
  turn := ht
  pairs q hq := ⟨q, hp ▸ hq, .refl q⟩
  relay h := by
    unfold hasRelayCandidate at h ⊢
    rwa [← hl]
  remotes k h := hr ▸ h

theorem of_keepsCore {P : Effect → Bool} (h : KeepsCore P s t) (ht : TurnCarried s.turn t.turn) :
    Narrows env s t := of_same ht h.checkList h.localCandidates h.remoteCandidates

/-- The pairs change, but not where they lead. -/
theorem of_pairs (h : ∀ q ∈ ps, ∃ p ∈ s.checkList, CheckPair.SamePath p q) :
    Narrows env s { s with checkList := ps } where
  turn := .refl _
  pairs := h
  relay := id
  remotes _ := id

theorem of_modify (i : ℕ) {f : CheckPair → CheckPair} (hf : ∀ p, CheckPair.SamePath p (f p)) :
    Narrows env s (s.modifyPair i f) := by
  refine of_pairs fun q hq => ?_
  rcases mem_modify hq with hq | ⟨p, hp, rfl⟩
  · exact ⟨q, hq, .refl q⟩
  · exact ⟨p, mem_of_getElem? hp, hf p⟩

theorem of_repaint (h : List.Forall₂ CheckPair.Repaints s.checkList ps) :
    Narrows env s { s with checkList := ps } := by
  refine of_pairs fun q hq => ?_
  obtain ⟨p, hp, hpq⟩ := exists_left_of_mem h hq
  exact ⟨p, hp, .of_repaints hpq⟩

theorem of_locals {l : List Candidate} (h : ∀ c ∈ l, c.type = .relay → s.hasRelayCandidate = true) :
    Narrows env s { s with localCandidates := l } where
  turn := .refl _
  pairs q hq := ⟨q, hq, .refl q⟩
  relay ha := by
    obtain ⟨c, hc, hrelay⟩ := any_eq_true.mp ha
    exact h c hc (by simpa using hrelay)
  remotes _ := id

theorem forget (s : Session) : Narrows env s s.forgetRemote where
  turn := .refl _
  pairs q hq := by cases hq
  relay := id
  remotes _ _ := rfl

theorem trans {u : Session} (hst : Narrows env s t) (htu : Narrows env t u) : Narrows env s u where
  turn := hst.turn.trans htu.turn
  pairs r hr := by
    obtain ⟨q, hq, hqr⟩ := htu.pairs r hr
    obtain ⟨p, hp, hpq⟩ := hst.pairs q hq
    exact ⟨p, hp, hqr.loc.trans hpq.loc, hqr.rem.trans hpq.rem,
      hqr.transportType.trans hpq.transportType⟩
  relay h := hst.relay (htu.relay h)
  remotes k h := htu.remotes k (hst.remotes k h)

end Narrows

/-! ### Sending a check -/

private theorem relayCidForEndpoint_turn (ep : Endpoint) (s : Session) :
    (s.relayCidForEndpoint ep).2.turn = s.turn := by
  unfold relayCidForEndpoint
  cases s.relayEndpointToCid.lookup ep <;> rfl

/-- A check that is recorded goes through an allocated client. -/
theorem transmit_relayChecks (env : Env) (p : CheckPair) (b : StunBuilder) (s : Session) :
    (s.transmit env p b).relayChecks = s.relayChecks ∨
      (p.loc.type = .relay ∧ transportIsTcp p.transportType = false ∧
        ∃ k ∈ s.turn, k.allocated = true ∧ (s.transmit env p b).relayChecks =
          (p.endpoint env.net, k.permissions) :: s.relayChecks) := by
  have hsend (tcp : Bool) (cid : Cid) (q : Payload) (u : Session) :
      (u.carrierSend tcp cid q).relayChecks = u.relayChecks :=
    (carrierSend_keeps (P := fun _ => true) u tcp rfl rfl).relayChecks
  have htcp := (ensureRemoteTcpCid_quiet env s (p.endpoint env.net)).relayChecks
  have hudp := (ensureRemoteCid_quiet env s (p.endpoint env.net)).relayChecks
  have hrelay := (relayCidForEndpoint_quiet s (p.endpoint env.net)).relayChecks
  have hturn := relayCidForEndpoint_turn (p.endpoint env.net) s
  unfold transmit
  dsimp only
  by_cases ht : transportIsTcp p.transportType = true
  · rw [if_pos ht]
    left
    split_ifs
    · rfl
    · exact htcp
    · rw [hsend, htcp]
  · rw [if_neg ht]
    by_cases hr : p.loc.type = .relay ∧ s.turnAllocated
    · rw [if_pos hr]
      right
      obtain ⟨k, hk, ha⟩ := (Option.any_eq_true _ _).mp hr.2
      refine ⟨hr.1, by simpa using ht, k, hk, ha, ?_⟩
      simp only [emit, noteRelayCheck]
      rw [hturn, hrelay, hk]
      rfl
    · rw [if_neg hr]
      left
      split_ifs
      · exact hudp
      · rw [hsend, hudp]

private theorem sendCheck_narrows : Narrows env s (s.sendCheck env i) := by
  obtain ⟨ps, rs, h⟩ := sendCheck_keeps env s
  have hsched := (sendCheck_scheduled env s i).checkList
  refine Narrows.trans (t := { s with checkList := (s.sendCheck env i).checkList }) ?_ ?_
  · refine .of_pairs fun q hq => ?_
    obtain ⟨p, hp, hpq⟩ := exists_left_of_mem hsched hq
    exact ⟨p, hp, .of_evolves hpq⟩
  · exact .of_same h.turn rfl h.localCandidates h.remoteCandidates

theorem sendCheck_covered (hs : s.RelayCovered env) : (s.sendCheck env i).RelayCovered env := by
  refine ⟨sendCheck_narrows.client hs, ?_⟩
  unfold sendCheck
  split
  · exact hs.checks
  · rename_i p hp
    split_ifs
    · obtain ⟨ps, hps, -⟩ := failPair_repaints s i
      rw [hps]
      exact hs.checks
    · rcases transmit_relayChecks env p (s.checkMessage p) ((s.modifyPair i fun p =>
        { p with retries := p.retries + 1, txnSendUs := env.clock s.draws }).drawn) with
        hsame | ⟨hl, ht, k, hk, ha, hnew⟩
      · unfold RelayChecksPermitted
        rw [hsame]
        exact hs.checks
      · unfold RelayChecksPermitted
        rw [hnew]
        obtain ⟨hpairs, -⟩ := coveredBy_iff.mp (hs.client k hk ha)
        have hcover := TurnClient.coversPair_iff.mp (hpairs p (mem_of_getElem? hp)) hl ht
        intro r hr
        rcases mem_cons.mp hr with rfl | hr
        · exact hcover
        · exact hs.checks r hr

/-! ### Rebuilding the list -/

theorem coversAll_withFoundation :
    k.coversAll net (cs.map (·.withFoundation net)) = k.coversAll net cs := by
  simp [TurnClient.coversAll, Function.comp_def]

private theorem any_relay_withFoundation :
    (cs.map (·.withFoundation net)).any (·.type = .relay) = cs.any (·.type = .relay) := by
  simp [Function.comp_def]

/-- A rebuild pairs the relay with remote candidates only, and those are all permitted. -/
theorem buildCheckList_covered (hnet : env.net.RoundTrips) (hs : s.RelayCovered env) :
    (s.buildCheckList env).RelayCovered env := by
  obtain ⟨_, _, _, heq⟩ := buildCheckList_eq
  have hturn : (s.buildCheckList env).turn = s.turn := by rw [heq]
  have hlocal : (s.buildCheckList env).localCandidates =
      s.localCandidates.map (·.withFoundation env.net) := by rw [heq]
  have hremote : (s.buildCheckList env).remoteCandidates =
      s.remoteCandidates.map (·.withFoundation env.net) := by rw [heq]
  have horigin : ∀ q ∈ (s.buildCheckList env).checkList,
      ∃ l ∈ s.localCandidates.map (·.withFoundation env.net),
        ∃ r ∈ s.remoteCandidates.map (·.withFoundation env.net), q.loc = l ∧
          q.rem.addressStr env.net = r.addressStr env.net ∧
          ¬ (r.type = .hostMdns ∧ r.hostname ≠ []) := by
    intro q hq
    obtain ⟨l, hl, r, hr, ha, hloc, port, fnd, hrem⟩ := mem_buildCheckList env s hq
    refine ⟨l, hl, r, hr, hloc, ?_, CheckPair.not_unresolved_of_admissible ha⟩
    rw [hrem]
    rfl
  have hchecks : (s.buildCheckList env).relayChecks = s.relayChecks := by rw [heq]
  generalize s.buildCheckList env = t at hturn hlocal hremote horigin hchecks ⊢
  refine ⟨fun k hk ha => ?_, ?_⟩
  · rw [hturn] at hk
    obtain ⟨-, hall⟩ := coveredBy_iff.mp (hs.client k hk ha)
    refine coveredBy_iff.mpr ⟨fun q hq => TurnClient.coversPair_iff.mpr fun hl _ => ?_,
      fun hr => ?_⟩
    · obtain ⟨l, hlm, r, hrm, hloc, hrem, hname⟩ := horigin q hq
      have hrelay : s.hasRelayCandidate = true := by
        rw [hasRelayCandidate, ← any_relay_withFoundation]
        exact any_eq_true.mpr ⟨l, hlm, by simpa [← hloc] using hl⟩
      have hcover := hall hrelay
      rw [← coversAll_withFoundation] at hcover
      rw [hrem]
      exact ⟨TurnClient.coversAll_iff.mp hcover r hrm, Candidate.addressStr_readable hnet hname⟩
    · rw [hasRelayCandidate, hlocal, any_relay_withFoundation] at hr
      rw [hremote, coversAll_withFoundation]
      exact hall hr
  · unfold RelayChecksPermitted
    rw [hchecks]
    exact hs.checks

/-! ### One action -/

theorem restartTimers_relayChecks : (s.restartTimers env).relayChecks = s.relayChecks :=
  ((dropTurn_works env s.cancelTimers).trans (dropTurnBackupProbe_quiet env _).toWorks).relayChecks

theorem freshCredentials_relayChecks : (s.freshCredentials env).relayChecks = s.relayChecks := rfl

theorem wipeForRestart_relayChecks : s.wipeForRestart.relayChecks = s.relayChecks := by
  unfold wipeForRestart unregisterMdns
  split_ifs <;> rfl

theorem reset_relayChecks : (s.reset env).relayChecks = s.relayChecks := by
  have hstate (u : Session) : (u.setState .new).relayChecks = u.relayChecks := rfl
  have hemit : (s.emit .restarted).relayChecks = s.relayChecks := rfl
  rw [reset, hstate, wipeForRestart_relayChecks, freshCredentials_relayChecks,
    restartTimers_relayChecks, hemit]

theorem reset_covered (hs : s.RelayCovered env) : (s.reset env).RelayCovered env := by
  obtain ⟨n, -, hcore⟩ := reset_core env s
  have hpairs : (s.reset env).checkList = [] := congrArg Core.checkList hcore
  have hlocal : (s.reset env).localCandidates = [] := congrArg Core.localCandidates hcore
  have hchecks : (s.reset env).relayChecks = s.relayChecks := reset_relayChecks
  refine ⟨fun k _ _ => coveredBy_iff.mpr ⟨fun p hp => ?_, fun hr => ?_⟩, ?_⟩
  · rw [hpairs] at hp
    cases hp
  · rw [hasRelayCandidate, hlocal] at hr
    cases hr
  · unfold RelayChecksPermitted
    rw [hchecks]
    exact hs.checks

private theorem covered_of_keepsCore (h : KeepsCore P s t)
    (ht : TurnCarried s.turn t.turn) (hs : s.RelayCovered env) : t.RelayCovered env :=
  (Narrows.of_keepsCore h ht).covered h.relayChecks hs

theorem covered_of_works (h : Works P s t) (hs : s.RelayCovered env) : t.RelayCovered env :=
  covered_of_keepsCore h.toKeepsCore h.turn hs

theorem turnInput_covered (h : KeepsCore Effect.isRoutine s t)
    (hp : ∀ k ∈ t.turn, ∃ k₀ ∈ s.turn, k₀.permissions = k.permissions)
    (hl : (t.turnAllocated && s.allocationStrays env) = false) (hs : s.RelayCovered env) :
    t.RelayCovered env := by
  refine ⟨fun k hk ha => ?_, ?_⟩
  · obtain ⟨k₀, hk₀, hperm⟩ := hp k hk
    have halloc : t.turnAllocated = true := by
      rw [turnAllocated, mem_def.mp hk]
      exact ha
    rw [halloc, Bool.true_and, allocationStrays, mem_def.mp hk₀] at hl
    have hcov : s.coveredBy env k₀ = true := by
      by_cases ha₀ : k₀.allocated = true
      · exact hs.client k₀ hk₀ ha₀
      · simpa [ha₀] using hl
    obtain ⟨hpairs, hall⟩ := coveredBy_iff.mp hcov
    refine coveredBy_iff.mpr ⟨fun q hq => ?_, fun hr => ?_⟩
    · rw [h.checkList] at hq
      exact TurnClient.coversPair_mono (hperm ▸ List.Subset.refl _) (.refl q) (hpairs q hq)
    · rw [hasRelayCandidate, h.localCandidates] at hr
      rw [h.remoteCandidates]
      exact TurnClient.coversAll_mono (hperm ▸ List.Subset.refl _) (hall hr)
  · unfold RelayChecksPermitted
    rw [h.relayChecks]
    exact hs.checks

theorem remotes_covered {l : List Candidate} (hs : s.RelayCovered env)
    (hr : ∀ k ∈ s.turn, k.allocated = true → s.hasRelayCandidate = true →
      k.coversAll env.net s.remoteCandidates = true → k.coversAll env.net l = true) :
    RelayCovered env { s with remoteCandidates := l } := by
  refine ⟨fun k hk ha => ?_, hs.checks⟩
  obtain ⟨hpairs, hall⟩ := coveredBy_iff.mp (hs.client k hk ha)
  exact coveredBy_iff.mpr ⟨hpairs, fun hl => hr k hk ha hl (hall hl)⟩

theorem pushLocal_covered {c : Candidate} (hc : c.type ≠ .relay) (hs : s.RelayCovered env) :
    (s.pushLocal c).RelayCovered env := by
  have hr : ∀ d ∈ s.localCandidates ++ [c], d.type = .relay → s.hasRelayCandidate = true := by
    intro d hd ht
    rcases mem_append.mp hd with hd | hd
    · exact any_eq_true.mpr ⟨d, hd, by simp [ht]⟩
    · rw [mem_singleton.mp hd] at ht
      exact absurd ht hc
  exact ⟨(Narrows.of_locals hr).client hs, hs.checks⟩

theorem trigger_covered {l rem : Candidate} (hs : s.RelayCovered env)
    (hl : (s.turn.any fun k => k.allocated &&
      !k.coversPair env.net (s.triggeredPair env l rem)) = false) :
    RelayCovered env { s.drawn with checkList := s.checkList ++ [s.triggeredPair env l rem] } := by
  refine ⟨fun k hk ha => ?_, hs.checks⟩
  obtain ⟨hpairs, hall⟩ := coveredBy_iff.mp (hs.client k hk ha)
  refine coveredBy_iff.mpr ⟨fun q hq => ?_, hall⟩
  rcases mem_append.mp hq with hq | hq
  · exact hpairs q hq
  · rw [mem_singleton.mp hq]
    rw [show s.turn = some k from hk] at hl
    simpa [ha] using hl

theorem act_relayCovered (hnet : env.net.RoundTrips) {l : Option Label} (h : Act env s l t)
    (hl : ∀ a ∈ l, a.strays = false) (hs : s.RelayCovered env) : t.RelayCovered env := by
  cases h with
  | quiet h | deliver h => exact covered_of_works h.toWorks hs
  | work h | release h => exact covered_of_works h hs
  | turnInput h _ hp =>
    have hstrays := hl _ rfl
    exact turnInput_covered h hp hstrays hs
  | takeover k cfg =>
    have hcov : (!({ s with localCandidates := s.takeoverLocals env k } : Session).coveredBy env k)
        = false := hl _ rfl
    refine ⟨fun k' hk _ => ?_, hs.checks⟩
    obtain rfl := some.inj hk
    have hcov' := coveredBy_iff.mp ((Bool.not_eq_false' _).mp hcov)
    exact coveredBy_iff.mpr hcov'
  | hosts l h hr => exact ⟨(Narrows.of_locals hr).client hs, hs.checks⟩
  | srflx c _ ht | prflx c _ ht => exact pushLocal_covered (by simp [ht]) hs
  | relay c _ hr =>
    refine ⟨fun k hk ha => ?_, hs.checks⟩
    obtain ⟨hpairs, -⟩ := coveredBy_iff.mp (hs.client k hk ha)
    exact coveredBy_iff.mpr ⟨hpairs, fun _ => hr k hk⟩
  | merge c hr =>
    refine remotes_covered hs fun k hk ha _ hall => ?_
    rw [TurnClient.coversAll] at hall ⊢
    rw [all_append, hall]
    simp [hr k hk ha]
  | restate l =>
    have hstrays : s.remotesStray env l = false := hl _ rfl
    refine remotes_covered hs fun k hk ha hrelay _ => ?_
    rw [remotesStray, mem_def.mp hk] at hstrays
    simpa [ha, hrelay] using hstrays
  | forget => exact (Narrows.forget s).covered rfl hs
  | rebuild => exact buildCheckList_covered hnet hs
  | check i | liteCheck i => exact sendCheck_covered hs
  | repaint ps h => exact (Narrows.of_repaint h).covered rfl hs
  | pick =>
    unfold pickNominee
    split
    · exact hs
    · rename_i i _
      have hflag : Narrows env ({ s with nomineeSelected := true } : Session)
          (({ s with nomineeSelected := true } : Session).modifyPair i fun p =>
            { p with nomineeCheckSent := true }) := .of_modify i fun p => ⟨rfl, rfl, rfl⟩
      exact sendCheck_covered (hflag.covered rfl ⟨hs.client, hs.checks⟩)
  | succeed i p =>
    have hmark : Narrows env s (s.modifyPair i fun p =>
        { p with valid := true, state := .succeeded }) := .of_modify i fun p => ⟨rfl, rfl, rfl⟩
    have hfree := hmark.trans (.of_repaint (CheckPair.unfreezeSiblings_repaints p.loc.foundation
      p.rem.foundation _))
    exact ⟨hfree.client hs, hs.checks⟩
  | respond | reject => exact covered_of_works (reply_keeps).toWorks hs
  | defer i =>
    have hmark : Narrows env s (s.markPendingNomination i) := .of_modify i fun p => ⟨rfl, rfl, rfl⟩
    exact ⟨hmark.client hs, hs.checks⟩
  | nominateDeferred i =>
    have hclear : Narrows env s (s.modifyPair i fun p => { p with pendingNomination := false }) :=
      .of_modify i fun p => ⟨rfl, rfl, rfl⟩
    exact ⟨hclear.client hs, hs.checks⟩
  | trigger loc rem =>
    have hstrays := hl _ rfl
    exact trigger_covered hs hstrays
  | restart => exact reset_covered hs
  | autoRestart now => exact reset_covered ⟨hs.client, hs.checks⟩
  | _ => exact ⟨hs.client, hs.checks⟩

/-! ### Steps and runs -/

/-- The event replaces addresses or the client under checks that go through the relay: the
allocation of the primary client arrives while pairs already wait for it, a backup takes over,
`set_remote` or a resolved name brings addresses that nobody asked a permission for, or a
request triggers a check from such an address. -/
def relayStrays (H : Hmac) (env : Env) (s : Session) (e : Event) : Prop :=
  (∃ d ∈ s.inbound e,
    (isTurnServer d.session.turn d.cid = true ∧ d.session.allocatesStray env d.data) ∨
    ∃ m ∈ d.accepted H env, m.msgType = bindingRequest ∧
      d.session.triggersStray env m d.cid d.fromTcp) ∨
  match e with
  | .turnStream backup bytes => backup = false ∧ s.allocatesStray env bytes
  | .setRemote _ _ cands => s.remotesStray env cands = true
  | .mdnsResolved idx hostname r => .mdnsResolve idx hostname ∈ s.queue ∧
    ∃ slot ∈ s.awaitingSlot idx hostname,
      s.remotesStray env (s.resolvedRemotes env idx slot r) = true
  | .task (.backupAllocated cfg) => .backupAllocated cfg ∈ s.queue ∧ s.backupTakesOver env ∧
    ∃ probe ∈ s.turnBackupProbe, s.takeoverStrays env probe = true
  | _ => False

private theorem relayStrays_of_allowed {a : Label} (h : a ∈ s.allowed H env e)
    (ha : a.strays = true) : s.relayStrays H env e := by
  rcases h with h | ⟨d, hd, h | ⟨m, -, h⟩ | ⟨m, hm, h⟩⟩
  · right
    cases e with
    | turnStream =>
      cases a with
      | deliver => exact h.1 ha
      | _ => exact h.elim
    | setRemote =>
      cases a with
      | restate => exact h.2 ha
      | deliver | takeover | trigger => exact h.elim
      | _ => cases ha
    | mdnsResolved =>
      cases a with
      | restate =>
        obtain ⟨hq, slot, hslot, -, hstrays⟩ := h
        exact ⟨hq, slot, hslot, hstrays ha⟩
      | deliver | takeover | trigger => exact h.elim
      | _ => cases ha
    | task k =>
      cases a with
      | deliver | restate | trigger => cases k <;> exact h.2.elim
      | takeover =>
        obtain ⟨hq, h⟩ := h
        cases k with
        | backupAllocated cfg => exact ⟨hq, h ha⟩
        | _ => exact h.elim
      | _ => cases ha
    | _ =>
      cases a with
      | deliver | takeover | restate | trigger => exact h.elim
      | _ => cases ha
  · obtain ⟨hdeliver, -, hturn, -⟩ := h
    obtain ⟨strays, moves, rfl⟩ := Label.eq_deliver hdeliver
    obtain rfl : strays = true := ha
    exact .inl ⟨d, hd, .inl (hturn moves rfl)⟩
  · cases a with
    | work | publish | srflx | rebuild | exhaust => cases ha
    | _ => exact h.elim
  · cases a with
    | trigger stale strays full => exact .inl ⟨d, hd, .inr ⟨m, hm, h.1, h.2.2.1 ha⟩⟩
    | deliver | takeover | restate => exact h.elim
    | _ => cases ha

theorem step_relayCovered (hnet : env.net.RoundTrips) (he : ¬ s.relayStrays H env e)
    (hs : s.RelayCovered env) : (s.step H env e).RelayCovered env := by
  refine (step_steps H env s e).invariant (fun {u v l} hl hact hu => ?_) hs
  refine act_relayCovered hnet hact (fun a ha => ?_) hu
  by_contra hstrays
  exact he (relayStrays_of_allowed (hl a ha) (by simpa using hstrays))

/-- In a run without such events every check through the relay goes to an address that the
client in use has asked a readable permission for. -/
theorem relay_checks_permitted (H : Hmac) (env : Env) (cfg : IceConfig) (w : Wiring)
    (controlling : Bool) (tiebreaker : ℕ) (es : List Event) (hnet : env.net.RoundTrips)
    (h : Along (step H env) (fun s e => ¬ s.relayStrays H env e)
      (create env cfg w controlling tiebreaker) es) :
    ((create env cfg w controlling tiebreaker).run H env es).RelayChecksPermitted env := by
  have hstart : (create env cfg w controlling tiebreaker).RelayCovered env := by
    refine ⟨fun k hk => ?_, fun r hr => ?_⟩
    · cases hk
    · cases hr
  exact (h.invariant (fun s e he hs => step_relayCovered hnet he hs) hstart).checks

/-- `relayStrays` of events that carry no bytes of a peer, as a test. -/
def localStrays (env : Env) (s : Session) : Event → Bool
  | .turnStream .. => s.allocationStrays env
  | .setRemote .. | .mdnsResolved .. | .task (.backupAllocated _) => true
  | _ => false

theorem not_relayStrays (he : e.isLocal = true) (h : s.localStrays env e = false) :
    ¬ s.relayStrays H env e := by
  rintro (⟨d, hd, -⟩ | hstray)
  · rw [inbound_isLocal he] at hd
    cases hd
  · cases e with
    | turnStream backup bytes =>
      obtain ⟨-, -, halloc⟩ := hstray
      rw [localStrays, halloc] at h
      cases h
    | task k =>
      cases k with
      | backupAllocated => cases h
      | _ => exact hstray
    | setRemote | mdnsResolved => cases h
    | _ => exact hstray

def permitsAlong (H : Hmac) (env : Env) (s : Session) : List Event → Bool
  | [] => true
  | e :: es => e.isLocal && !s.localStrays env e && (s.step H env e).permitsAlong H env es

private theorem along_of_permitsAlong {es : List Event} (h : s.permitsAlong H env es = true) :
    Along (step H env) (fun s e => ¬ s.relayStrays H env e) s es := by
  induction es generalizing s with
  | nil => trivial
  | cons e es ih =>
    simp only [permitsAlong, Bool.and_eq_true, Bool.not_eq_true'] at h
    obtain ⟨⟨hlocal, hstray⟩, hrest⟩ := h
    exact ⟨not_relayStrays hlocal hstray, ih hrest⟩

/-- The check of a signalled candidate finds its permission at the server. -/
theorem relayed_check_permitted :
    let s := relayOnly.run zeroHmac .lan relayedCheck
    s.relayChecks ≠ [] ∧ s.RelayChecksPermitted .lan := by
  refine ⟨by decide +kernel, ?_⟩
  exact relay_checks_permitted _ .lan
    { turnServers := [{ server := Inet.dotted 192 0 2 1, tcpTransport := true }]
      candidateFilter := { relayOnly := true } }
    { carrierTcp := true } true 7 relayedCheck Inet.posix_roundTrips
    (along_of_permitsAlong (by decide +kernel))

/-- The second batch asks for the name, whose address nobody asked a permission for. -/
def resolvedBehindRelay : List Event :=
  [.gather, .turnStream false (serverFrame allocateResponse),
    .task (.turnAllocated (relayCandidate Env.lan.net ⟨Inet.dotted 192 0 2 1, 49152⟩)),
    .addRemoteCandidates [1] [2] [peerHost] false,
    .addRemoteCandidates [1] [2] [{ peerHost with type := .hostMdns, hostname := pLocal }] false,
    .mdnsResolved 1 pLocal ⟨true, [Inet.dotted 10 0 0 3], []⟩]

theorem resolved_address_not_permitted :
    ¬ ∃ H : Hmac, ((create .lan relayOnly.cfg { carrierTcp := true, mdns := true } true 7).run
      H .lan resolvedBehindRelay).RelayChecksPermitted .lan := by
  rintro ⟨H, h⟩
  rw [run_isLocal (by decide) H zeroHmac] at h
  have hall : ((create .lan relayOnly.cfg { carrierTcp := true, mdns := true } true 7).run
      zeroHmac .lan resolvedBehindRelay).relayChecks.all
        (fun r => decide (r.1.ip ∈ r.2)) = true :=
    all_eq_true.mpr fun r hr => decide_eq_true (h r hr).1
  exact absurd hall (by decide +kernel)

end Session

end LinkIce
