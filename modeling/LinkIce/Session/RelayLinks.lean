import LinkIce.Session.Script
import LinkIce.Session.TcpStreams

/-! The synthetic connection ids of relayed endpoints. Three containers have to agree on
them, and `tear_down_cids` clears only one of the three. -/
namespace LinkIce
open Stun List Option

namespace Links

structure RelayConsistent (k : Links) : Prop where
  known : ∀ ep cid, k.relayEndpointToCid.lookup ep = some cid →
    cid ∈ k.relayCids ∧ k.cidToEndpointUdp.lookup cid = some ⟨ep, .udp⟩
  distinct : ∀ ep ep' cid, k.relayEndpointToCid.lookup ep = some cid →
    k.relayEndpointToCid.lookup ep' = some cid → ep = ep'

/-- The carrier's ids are none of the synthetic ones, and those have not run out. -/
structure Apart (k : Links) : Prop where
  udp : ∀ ep cid, k.endpointToCid.lookup ep = some cid → cid ∉ k.relayCids
  room : k.relayCids.length < 2 ^ 62

/-- Where `next_relay_cid_` stands as long as it has not wrapped around. -/
def Counted (k : Links) : Prop :=
  k.relayCids.length < 2 ^ 62 → k.nextRelayCid ≤ 0xC000000000000000 + k.relayCids.length ∧
    ∀ cid ∈ k.relayCids, cid < k.nextRelayCid

/-- Connections are only added; the reassembly buffers are of no concern here. -/
def Grows : Links → Links → Prop :=
  Relation.ReflTransGen fun k k' => Opens k k' ∨ ∃ l, k' = { k with tcpRxBuffers := l }

variable {k k' : Links}

theorem RelayConsistent.of_known (h : ∀ ep cid, k.relayEndpointToCid.lookup ep = some cid →
    cid ∈ k.relayCids ∧ k.cidToEndpointUdp.lookup cid = some ⟨ep, .udp⟩) : k.RelayConsistent where
  known := h
  distinct ep ep' cid h₁ h₂ := by
    have heq := (h ep cid h₁).2.symm.trans (h ep' cid h₂).2
    simpa using heq

theorem Counted.new (h : k.Counted) (hroom : k.relayCids.length < 2 ^ 62) :
    k.nextRelayCid ∉ k.relayCids := fun hmem => lt_irrefl _ ((h hroom).2 _ hmem)

theorem relayCid_succ {n len : ℕ} (hn : n ≤ 0xC000000000000000 + len) (hl : len + 1 < 2 ^ 62) :
    (n + 1) % 2 ^ 64 = n + 1 ∧ n + 1 ≤ 0xC000000000000000 + (len + 1) := by
  omega

theorem Opens.apart (h : Opens k k') (ha : k'.Apart) : k.Apart := by
  cases h with
  | udp ep cid hnew =>
    refine ⟨fun ep' cid' hk => ?_, ha.room⟩
    have hne : ep' ≠ ep := by
      rintro rfl
      rw [hnew] at hk
      cases hk
    exact ha.udp ep' cid' (by rw [AList.lookup_insert_ne hne]; exact hk)
  | relay ep hnew =>
    constructor
    · intro ep' cid' hk hmem
      exact ha.udp ep' cid' hk (mem_insert_of_mem hmem)
    · have hroom := ha.room
      have hle : k.relayCids.length ≤ (k.relayCids.insert k.nextRelayCid).length :=
        length_le_length_insert
      exact lt_of_le_of_lt hle hroom

theorem Opens.counted (h : Opens k k') (hc : k.Counted) : k'.Counted := by
  cases h with
  | udp => exact hc
  | relay ep hnew =>
    intro hroom
    have hle : k.relayCids.length ≤ (k.relayCids.insert k.nextRelayCid).length :=
      length_le_length_insert
    have hk : k.relayCids.length < 2 ^ 62 := lt_of_le_of_lt hle hroom
    have hins := insert_of_not_mem (hc.new hk)
    obtain ⟨hnext, hbelow⟩ := hc hk
    dsimp only at hroom ⊢
    rw [hins] at hroom ⊢
    rw [length_cons] at hroom ⊢
    obtain ⟨hmod, hsucc⟩ := relayCid_succ hnext hroom
    rw [hmod]
    refine ⟨hsucc, fun cid hcid => ?_⟩
    rcases mem_cons.mp hcid with rfl | hmem
    · exact Nat.lt_succ_self _
    · exact Nat.lt_succ_of_lt (hbelow cid hmem)

theorem RelayConsistent.relay (hr : k.RelayConsistent) (hc : k.Counted)
    (hroom : k.relayCids.length < 2 ^ 62) (ep : Endpoint) (n : Cid) :
    RelayConsistent { k with
      nextRelayCid := n
      relayEndpointToCid := k.relayEndpointToCid.insert ep k.nextRelayCid
      relayCids := k.relayCids.insert k.nextRelayCid
      cidToEndpointUdp := k.cidToEndpointUdp.insert k.nextRelayCid ⟨ep, .udp⟩ } := by
  apply RelayConsistent.of_known
  intro ep' cid' hk
  dsimp only at hk ⊢
  by_cases hep : ep' = ep
  · rw [hep, AList.lookup_insert] at hk
    obtain rfl := some.inj hk
    exact ⟨mem_insert_self, by rw [hep, AList.lookup_insert]⟩
  · rw [AList.lookup_insert_ne hep] at hk
    obtain ⟨hmem, hlook⟩ := hr.known ep' cid' hk
    have hne : cid' ≠ k.nextRelayCid := by
      rintro rfl
      exact hc.new hroom hmem
    exact ⟨mem_insert_of_mem hmem, by rw [AList.lookup_insert_ne hne, hlook]⟩

theorem Opens.relayConsistent (h : Opens k k') (hc : k.Counted) (ha : k'.Apart)
    (hr : k.RelayConsistent) : k'.RelayConsistent := by
  have hroom := (h.apart ha).room
  cases h with
  | udp ep cid hnew =>
    apply RelayConsistent.of_known
    intro ep' cid' hk
    obtain ⟨hmem, hlook⟩ := hr.known ep' cid' hk
    have hne : cid' ≠ cid := by
      rintro rfl
      exact ha.udp ep cid' (AList.lookup_insert _) hmem
    exact ⟨hmem, by rw [AList.lookup_insert_ne hne, hlook]⟩
  | relay ep hnew => exact hr.relay hc hroom ep _

theorem Grows.apart (h : Grows k k') (ha : k'.Apart) : k.Apart := by
  induction h with
  | refl => exact ha
  | tail _ h ih =>
    rcases h with h | ⟨l, rfl⟩
    · exact ih (h.apart ha)
    · exact ih ⟨ha.udp, ha.room⟩

theorem Grows.counted (h : Grows k k') (hc : k.Counted) : k'.Counted := by
  induction h with
  | refl => exact hc
  | tail _ h ih =>
    rcases h with h | ⟨l, rfl⟩
    · exact h.counted ih
    · exact ih

theorem Grows.relayConsistent (h : Grows k k') (hc : k.Counted) (ha : k'.Apart)
    (hr : k.RelayConsistent) : k'.RelayConsistent := by
  induction h with
  | refl => exact hr
  | tail hg h ih =>
    rcases h with h | ⟨l, rfl⟩
    · exact h.relayConsistent (Grows.counted hg hc) ha (ih (h.apart ha))
    · have hb := ih ⟨ha.udp, ha.room⟩
      exact ⟨hb.known, hb.distinct⟩

theorem Grows.lookup (h : Grows k k') {ep : Endpoint} {cid : Cid}
    (hk : k.relayEndpointToCid.lookup ep = some cid) :
    k'.relayEndpointToCid.lookup ep = some cid := by
  induction h with
  | refl => exact hk
  | tail _ h ih =>
    rcases h with h | ⟨l, rfl⟩
    · cases h with
      | udp => exact ih
      | relay ep' hnew =>
        have hne : ep ≠ ep' := by
          rintro rfl
          rw [hnew] at ih
          cases ih
        exact (AList.lookup_insert_ne hne).trans ih
    · exact ih

theorem Grows.of_opens (h : Relation.ReflTransGen Opens k k') : Grows k k' :=
  Relation.ReflTransGen.mono (fun _ _ ho => Or.inl ho) _ _ h

theorem Counted.tornDown (h : k.Counted) : k.tornDown.Counted := h

theorem RelayConsistent.of_empty (h : k.relayEndpointToCid = ∅) : k.RelayConsistent := by
  apply RelayConsistent.of_known
  intro ep cid hk
  rw [h] at hk
  cases hk

end Links

namespace Session

variable {H : Hmac} {env : Env} {A : Set Label} {s t : Session} {e : Event} {cid : Cid}
  {ep : Endpoint} {m : StunMessage} {b : StunBuilder}

/-! ### One step -/

/-- The event licenses a restart or the teardown of `close`. -/
def tearsDown (H : Hmac) (env : Env) (s : Session) (e : Event) : Prop :=
  .restart ∈ s.allowed H env e ∨ .teardown ∈ s.allowed H env e

theorem act_grows {l : Option Label} (h : Act env s l t)
    (hl : ∀ a ∈ l, a ≠ .restart ∧ a ≠ .teardown) : s.links.Grows t.links := by
  by_cases hrx : l = some .rxBuffers
  · subst hrx
    cases h with
    | rxBuffers buf => exact .single (.inr ⟨buf, rfl⟩)
  · refine .of_opens (act_links h fun a ha => ?_)
    have hne := hl a ha
    cases a with
    | restart => exact absurd rfl hne.1
    | teardown => exact absurd rfl hne.2
    | rxBuffers => exact absurd ha hrx
    | _ => rfl

theorem steps_grows (h : Steps env A s t) (hA : ∀ a ∈ A, a ≠ .restart ∧ a ≠ .teardown) :
    s.links.Grows t.links := by
  induction h with
  | refl => exact .refl
  | tail _ hact hl ih => exact ih.trans (act_grows hact fun a ha => hA a (hl a ha))

theorem restart_grows (h : s.state ≠ .failed) : s.links.tornDown.Grows (s.restart env).links := by
  have hgather : Steps env { l | l ≠ .restart ∧ l ≠ .teardown } (s.reset env)
      ((s.reset env).gather env) :=
    gather_steps (by simp) (gatherLabels_subset (by simp) (by simp) (by simp) (by simp))
      fun hc => absurd rfl hc.2.2
  rw [restart, if_neg h, ← reset_links env s]
  exact steps_grows hgather fun _ ha => ha

theorem drawn_countAutoRestart_links (now : ℕ) (s : Session) :
    (s.drawn.countAutoRestart now).links = s.links := rfl

theorem drawn_refreshConsent_links : s.drawn.refreshConsent.links = s.links := rfl

private theorem fail_links {cause : FailureOrigin} : (s.fail cause).links = s.links := rfl

theorem notifyConsentLoss_grows (env : Env) (s : Session) :
    s.links.tornDown.Grows (s.notifyConsentLoss env).links ∨
      (s.notifyConsentLoss env).links = s.links := by
  unfold notifyConsentLoss
  dsimp only
  split_ifs
  · have hlinks := drawn_countAutoRestart_links (env.clock s.draws) s
    generalize s.drawn.countAutoRestart (env.clock s.draws) = u at hlinks ⊢
    rw [← hlinks]
    by_cases hf : u.state = .failed
    · rw [restart, if_pos hf]
      exact .inr rfl
    · exact .inl (restart_grows hf)
  · exact .inr drawn_refreshConsent_links
  · exact .inr fail_links

theorem tearsDown_local (h : s.tearsDown H env e) (hi : s.inbound e = none) :
    (e = .restart ∧ s.state ≠ .failed) ∨ (e = .task .closeTeardown ∧ .closeTeardown ∈ s.queue) ∨
      ∃ gen, e = .task (.keepalive gen) ∧ .keepalive gen ∈ s.queue ∧ s.keepaliveGen = gen ∧
        s.losesConsent ∧ s.cfg.consentMaxRecovery ≤ s.consentRecoveryAttempts := by
  have hev : s.eventAllowed env e .restart ∨ s.eventAllowed env e .teardown := by
    rcases h with (h | ⟨d, hd, -⟩) | (h | ⟨d, hd, -⟩)
    · exact .inl h
    · rw [hi] at hd
      cases hd
    · exact .inr h
    · rw [hi] at hd
      cases hd
  cases e with
  | restart => exact .inl ⟨rfl, hev.resolve_right id⟩
  | task t =>
    cases t with
    | closeTeardown => exact .inr (.inl ⟨rfl, hev.elim (·.1) (·.1)⟩)
    | keepalive gen =>
      obtain ⟨hq, hgen, hloses, hspent⟩ := hev.resolve_right fun h => h.2
      exact .inr (.inr ⟨gen, rfl, hq, hgen, hloses, hspent⟩)
    | _ => rcases hev with ⟨-, h⟩ | ⟨-, h⟩ <;> exact h.elim
  | _ => rcases hev with h | h <;> exact h.elim

theorem step_tornDown (h : s.tearsDown H env e) (hi : s.inbound e = none) :
    s.links.tornDown.Grows (s.step H env e).links ∨ (s.step H env e).links = s.links := by
  rcases tearsDown_local h hi with ⟨rfl, hs⟩ | ⟨rfl, hq⟩ | ⟨gen, rfl, hq, hgen, hloses, hspent⟩
  · exact .inl (restart_grows hs)
  · have hstep : s.step H env (.task .closeTeardown) =
        (s.dequeue .closeTeardown).closeTeardown env := by
      rw [step, if_pos hq]
      rfl
    rw [hstep, closeTeardown_links]
    exact .inl .refl
  · have hstep : s.step H env (.task (.keepalive gen)) =
        (s.dequeue (.keepalive gen)).onKeepalive env := by
      have hgen' : (s.dequeue (.keepalive gen)).keepaliveGen = gen := hgen
      rw [step, if_pos hq, runTask, if_pos hgen']
    have hlinks : (s.dequeue (.keepalive gen)).links = s.links := rfl
    have hloses' : (s.dequeue (.keepalive gen)).losesConsent := hloses
    rw [hstep, onKeepalive_spent hloses' hspent, ← hlinks]
    exact notifyConsentLoss_grows env (s.dequeue (.keepalive gen)).withoutConsent

/-- Connections to relayed endpoints survive the step: nothing is torn down while there are
any, and the ids of the carrier stay apart from theirs. -/
def keepsRelay (H : Hmac) (env : Env) (s : Session) (e : Event) : Prop :=
  (s.tearsDown H env e → s.relayEndpointToCid = ∅ ∧ s.inbound e = none) ∧
    (s.step H env e).links.Apart

/-- What the containers say, together with what it takes to keep it so. -/
structure RelayTracked (s : Session) : Prop where
  counted : s.links.Counted
  apart : s.links.Apart
  consistent : s.links.RelayConsistent

theorem step_relayTracked (he : s.keepsRelay H env e) (h : s.RelayTracked) :
    (s.step H env e).RelayTracked := by
  obtain ⟨htear, hapart⟩ := he
  by_cases ht : s.tearsDown H env e
  · obtain ⟨hempty, hi⟩ := htear ht
    rcases step_tornDown ht hi with hg | heq
    · have hnone : s.links.tornDown.RelayConsistent := .of_empty hempty
      exact ⟨hg.counted h.counted.tornDown, hapart,
        hg.relayConsistent h.counted.tornDown hapart hnone⟩
    · exact ⟨by rw [heq]; exact h.counted, hapart, by rw [heq]; exact h.consistent⟩
  · have hg : s.links.Grows (s.step H env e).links := by
      refine steps_grows (step_steps H env s e) fun a ha => ⟨?_, ?_⟩
      · rintro rfl
        exact ht (.inl ha)
      · rintro rfl
        exact ht (.inr ha)
    exact ⟨hg.counted h.counted, hapart, hg.relayConsistent h.counted hapart h.consistent⟩

theorem create_relayTracked {cfg : IceConfig} {w : Wiring} {controlling : Bool} {tiebreaker : ℕ} :
    (create env cfg w controlling tiebreaker).RelayTracked where
  counted := fun _ => ⟨le_rfl, fun cid hcid => by cases hcid⟩
  apart := ⟨fun ep cid hk => (by cases hk), Nat.two_pow_pos 62⟩
  consistent := .of_empty rfl

/-! ### Answers to relayed requests -/

theorem transmit_turn {p : CheckPair} : (s.transmit env p b).turn = s.turn := by
  have hsend (tcp : Bool) (cid : Cid) (q : Payload) (u : Session) :
      (u.carrierSend tcp cid q).turn = u.turn := by
    unfold carrierSend
    split_ifs <;> rfl
  have htcp (ep : Endpoint) : (s.ensureRemoteTcpCid env ep).2.turn = s.turn := by
    unfold ensureRemoteTcpCid
    dsimp only
    split_ifs <;> rfl
  have hudp (ep : Endpoint) : (s.ensureRemoteCid env ep).2.turn = s.turn := by
    unfold ensureRemoteCid
    cases s.endpointToCid.lookup ep with
    | some cid => split_ifs <;> rfl
    | none =>
      dsimp only
      split_ifs <;> rfl
  have hrelay (ep : Endpoint) : (s.relayCidForEndpoint ep).2.turn = s.turn := by
    unfold relayCidForEndpoint
    cases s.relayEndpointToCid.lookup ep <;> rfl
  have hnote (ep : Endpoint) (e : Effect) (u : Session) :
      ((u.noteRelayCheck ep).emit e).turn = u.turn := rfl
  unfold transmit
  dsimp only
  split_ifs
  · rfl
  · exact htcp _
  · rw [hsend, htcp]
  · rw [hnote, hrelay]
  · exact hudp _
  · rw [hsend, hudp]

theorem ticks_turn (h : Ticks env s t) : t.turn = s.turn := by
  induction h with
  | refl => rfl
  | tail _ ht ih =>
    rw [← ih]
    cases ht with
    | repaint | read => rfl
    | check i =>
      unfold sendCheck
      split
      · rfl
      · split_ifs
        · obtain ⟨ps, hs, -⟩ := failPair_repaints _ i
          rw [hs]
        · exact transmit_turn

theorem buildCheckList_turn (env : Env) (s : Session) : (s.buildCheckList env).turn = s.turn := by
  obtain ⟨_, _, _, h⟩ := buildCheckList_eq
  rw [h]

theorem recheck_turn : (s.recheck env).turn = s.turn := by
  have hbuild : ({ s.buildCheckList env with currentCheck := 0 } : Session).turn = s.turn :=
    buildCheckList_turn env s
  rw [← hbuild, recheck]
  generalize ({ s.buildCheckList env with currentCheck := 0 } : Session) = u
  have hpass := ticks_turn (checkPasses_ticks env u)
  unfold runNextCheck
  dsimp only
  generalize (u.checkPasses env).2 = v at hpass ⊢
  rw [← hpass]
  split_ifs
  · exact hpass.symm
  · unfold armCheckTimer
    split_ifs <;> rfl
  · unfold checksExhausted armNominationWait
    split_ifs
    · rfl
    · dsimp only
      split_ifs <;> rfl
    · rfl

/-- A response with this transaction id, or an error response, goes back to the relayed endpoint
between the two states. -/
def AnswersRelayed (ep : Endpoint) (txn : TransactionId) (s t : Session) : Prop :=
  ∃ (b : StunBuilder) (log : List Effect),
    (b.txnId = txn ∧ (b.msgType = bindingResponse ∨ b.msgType = bindingError)) ∧
    .relaySend ep (.stun b) :: log <:+ t.log ∧ s.log <:+ log

/-- The endpoint can be reached through the relay under its id. -/
structure RelayReady (ep : Endpoint) (cid : Cid) (s : Session) : Prop where
  turn : s.turn.isSome = true
  relayed : cid ∈ s.relayCids
  found : s.endpointOf false cid = ep

theorem reply_relayed (h : s.RelayReady ep cid) (hip : ep.ip ≠ []) :
    s.reply false cid ep b = s.emit (.relaySend ep (.stun b)) := by
  rw [reply, if_neg Bool.false_ne_true, if_pos ⟨h.turn, h.relayed⟩, if_neg hip]

private theorem answerRequest_log_suffix {fromTcp : Bool} :
    (s.answerRequest m cid fromTcp).log <:+ (s.acceptRequest env m cid fromTcp).log := by
  have hctl : (s.answerRequest m cid fromTcp).controlling = s.controlling :=
    congrArg Core.controlling (answerRequest_core m cid fromTcp s)
  unfold acceptRequest
  extract_lets ep s₂ s₃
  have htrigger : Steps env Set.univ s₃ (s₃.maybeTriggerCheckFromPeer env ep) :=
    maybeTriggerCheckFromPeer_steps ep fun _ _ _ _ _ _ => Set.mem_univ _
  refine List.IsSuffix.trans ?_ (steps_log_suffix htrigger)
  dsimp only [s₃]
  split_ifs with huc
  · have hc : s₂.controlling = false := by simpa using huc.2.1
    have huse : Steps env Set.univ s₂ (s₂.onUseCandidate env ep cid fromTcp) :=
      onUseCandidate_steps ep cid fromTcp hc (answerRequest_received cid fromTcp huc.1)
        (fun _ _ _ _ _ => ⟨Set.mem_univ _, .univ _⟩) (fun _ _ => Set.mem_univ _)
        fun _ _ => Set.mem_univ _
    exact steps_log_suffix huse
  · exact suffix_refl _

theorem acceptRequest_answers (h : s.RelayReady ep cid) (hip : ep.ip ≠ []) :
    AnswersRelayed ep m.txnId s (s.acceptRequest env m cid false) := by
  have hsuf : (s.answerRequest m cid false).log <:+ (s.acceptRequest env m cid false).log :=
    answerRequest_log_suffix
  unfold answerRequest at hsuf
  dsimp only at hsuf
  rw [h.found] at hsuf
  generalize hu : s.emit _ = u at hsuf
  have hready : u.RelayReady ep cid := by
    rw [← hu]
    exact ⟨h.turn, h.relayed, h.found⟩
  have hlog : s.log <:+ u.log := by
    rw [← hu]
    exact suffix_cons _ _
  rw [reply_relayed hready hip] at hsuf
  exact ⟨u.responseMessage m.txnId, u.log, ⟨rfl, .inl rfl⟩, hsuf, hlog⟩

theorem rejectRequest_answers (h : s.RelayReady ep cid) (hip : ep.ip ≠ []) :
    AnswersRelayed ep m.txnId s (s.rejectRequest m cid false) := by
  refine ⟨s.roleConflictMessage m.txnId, s.log, ⟨rfl, .inr rfl⟩, ?_, suffix_refl _⟩
  rw [rejectRequest, h.found, reply_relayed h hip]
  exact suffix_refl _

theorem RelayReady.of_consistent (hr : s.links.RelayConsistent)
    (hk : s.relayEndpointToCid.lookup ep = some cid) (hturn : s.turn.isSome = true) :
    s.RelayReady ep cid := by
  obtain ⟨hmem, hlook⟩ := hr.known ep cid hk
  have hlook' : s.cidToEndpointUdp.lookup cid = some ⟨ep, .udp⟩ := hlook
  exact ⟨hturn, hmem, by simp [endpointOf, hlook']⟩

/-- A change of roles may rebuild the check list and open connections, but then nothing is
nominated afterwards. -/
theorem flipRole_relayReady (hc : s.links.Counted) (hr : s.links.RelayConsistent)
    (hk : s.relayEndpointToCid.lookup ep = some cid) (hturn : s.turn.isSome = true)
    (hapart : ((s.flipRole env).acceptRequest env m cid false).links.Apart) :
    (s.flipRole env).RelayReady ep cid := by
  rcases flipRole_eq env s with ⟨-, hflip⟩ | ⟨-, hflip⟩
  · have hfwd : s.links.Grows (s.flipRole env).links := by
      have hsteps : Steps env { l | l ≠ .restart ∧ l ≠ .teardown } s (s.flipRole env) := by
        refine flipRole_steps (by simp) fun _ _ _ l hl => ?_
        have hlabel := rechecks_checkLabels hl
        constructor
        · rintro rfl
          exact hlabel.elim
        · rintro rfl
          exact hlabel.elim
      exact steps_grows hsteps fun _ ha => ha
    have hrest : (s.flipRole env).links.Grows
        ((s.flipRole env).acceptRequest env m cid false).links := by
      have hsteps : Steps env { l | l ≠ .restart ∧ l ≠ .teardown } (s.flipRole env)
          ((s.flipRole env).acceptRequest env m cid false) := by
        refine acceptRequest_steps m cid false (by simp) (by simp) (fun p _ hp => ?_) (by simp)
          (by simp)
        obtain ⟨-, -, hs, i, -, hpi⟩ := hp
        rw [hflip] at hpi
        exact absurd hs (recheck_not_succeeded env _ p (mem_of_getElem? hpi))
      exact steps_grows hsteps fun _ ha => ha
    refine .of_consistent (hfwd.relayConsistent hc (hrest.apart hapart) hr) (hfwd.lookup hk) ?_
    rw [hflip, recheck_turn]
    exact hturn
  · rw [hflip]
    exact .of_consistent hr hk hturn

theorem handleBindingRequest_answers (hc : s.links.Counted) (hr : s.links.RelayConsistent)
    (hk : s.relayEndpointToCid.lookup ep = some cid) (hturn : s.turn.isSome = true)
    (hip : ep.ip ≠ []) (hapart : (s.handleBindingRequest env m cid false).links.Apart) :
    AnswersRelayed ep m.txnId s (s.handleBindingRequest env m cid false) := by
  have hready : s.RelayReady ep cid := .of_consistent hr hk hturn
  unfold handleBindingRequest at hapart ⊢
  dsimp only at hapart ⊢
  by_cases hrole : s.sameRole m = true
  · rw [if_pos hrole] at hapart ⊢
    rcases handleRoleConflict_eq env s m hrole with ⟨-, he⟩ | ⟨-, he⟩
    · rw [he] at hapart ⊢
      have hflip := flipRole_relayReady hc hr hk hturn hapart
      obtain ⟨b, log, htxn, hsuf, hlog⟩ := acceptRequest_answers hflip hip
      have hsteps : Steps env Set.univ s (s.flipRole env) :=
        flipRole_steps (Set.mem_univ _) fun _ _ _ => Set.subset_univ _
      exact ⟨b, log, htxn, hsuf, (steps_log_suffix hsteps).trans hlog⟩
    · rw [he]
      exact rejectRequest_answers hready hip
  · rw [if_neg hrole]
    exact acceptRequest_answers hready hip

private theorem relayCidForEndpoint_ready {u : Session}
    (hc : s.links.Counted) (hroom : s.links.relayCids.length < 2 ^ 62)
    (hr : s.links.RelayConsistent) (h : s.relayCidForEndpoint ep = (cid, u)) :
    u.links.Counted ∧ u.links.RelayConsistent ∧ u.relayEndpointToCid.lookup ep = some cid ∧
      u.turn = s.turn ∧ u.log = s.log := by
  unfold relayCidForEndpoint at h
  cases hk : s.relayEndpointToCid.lookup ep with
  | some cid' =>
    rw [hk] at h
    obtain ⟨rfl, rfl⟩ := Prod.mk.inj h
    exact ⟨hc, hr, hk, rfl, rfl⟩
  | none =>
    rw [hk] at h
    obtain ⟨rfl, rfl⟩ := Prod.mk.inj h
    have hopens : s.links.Opens _ := .relay s.links ep hk
    exact ⟨hopens.counted hc, hr.relay hc hroom ep _, AList.lookup_insert _, rfl, rfl⟩

theorem step_relayStun_answers {bytes : Bytes} {d : Delivery}
    (h : s.RelayTracked) (hd : d ∈ s.inbound (.task (.relayStun ep bytes)))
    (hm : m ∈ d.accepted H env) (hreq : m.msgType = bindingRequest)
    (hturn : s.turn.isSome = true) (hip : ep.ip ≠ [])
    (hapart : (s.step H env (.task (.relayStun ep bytes))).links.Apart) :
    AnswersRelayed ep m.txnId s (s.step H env (.task (.relayStun ep bytes))) := by
  obtain ⟨-, hs⟩ := step_inbound H env hd
  rw [hs, onCarrierData_accepted hm, onStun, if_neg (by rw [hreq]; decide),
    if_neg (by rw [hreq]; decide), if_pos hreq] at hapart ⊢
  unfold inbound at hd
  dsimp only at hd
  by_cases hq : .relayStun ep bytes ∈ s.queue
  · rw [if_pos hq] at hd
    obtain rfl := some.inj hd
    have hdeq : (s.dequeue (.relayStun ep bytes)).RelayTracked :=
      ⟨h.counted, h.apart, h.consistent⟩
    generalize hu : (s.dequeue (.relayStun ep bytes)).relayCidForEndpoint ep = r at hm hapart ⊢
    obtain ⟨hc, hr, hk, hturn', hlog⟩ :=
      relayCidForEndpoint_ready hdeq.counted hdeq.apart.room hdeq.consistent hu
    obtain ⟨b, log, htxn, hsuf, hsub⟩ := handleBindingRequest_answers hc hr hk
      (by rw [hturn']; exact hturn) hip hapart
    rw [hlog] at hsub
    exact ⟨b, log, htxn, hsuf, hsub⟩
  · rw [if_neg hq] at hd
    cases hd

/-- Along a run that tears no connection down while there are relayed endpoints, the three
containers agree, and every relayed request is answered to its source. -/
theorem relay_ids_consistent (H : Hmac) (env : Env) (cfg : IceConfig) (w : Wiring)
    (controlling : Bool) (tiebreaker : ℕ) (es : List Event)
    (hes : Along (step H env) (keepsRelay H env) (create env cfg w controlling tiebreaker) es) :
    let s := (create env cfg w controlling tiebreaker).run H env es
    s.links.RelayConsistent ∧ ∀ ep bytes, ∀ d ∈ s.inbound (.task (.relayStun ep bytes)),
      ∀ m ∈ d.accepted H env, m.msgType = bindingRequest → s.turn.isSome = true → ep.ip ≠ [] →
      (s.step H env (.task (.relayStun ep bytes))).links.Apart →
      AnswersRelayed ep m.txnId s (s.step H env (.task (.relayStun ep bytes))) := by
  have h : ((create env cfg w controlling tiebreaker).run H env es).RelayTracked :=
    hes.invariant (fun _ _ he hs => step_relayTracked he hs)
      create_relayTracked
  exact ⟨h.consistent, fun ep bytes d hd m hm hreq hturn hip hapart =>
    step_relayStun_answers h hd hm hreq hturn hip hapart⟩

/-! ### A session behind a TURN server -/

/-- A local event that does not reach `tear_down_cids`. -/
def sparesLinks : Event → Bool
  | .restart | .task .closeTeardown | .task (.keepalive _) => false
  | e => e.isLocal

theorem apart_of_no_udp (hudp : s.endpointToCid = ∅) (hroom : s.relayCids.length < 2 ^ 62) :
    s.links.Apart := by
  refine ⟨fun ep cid hk => ?_, hroom⟩
  have hk' : s.endpointToCid.lookup ep = some cid := hk
  rw [hudp] at hk'
  cases hk'

theorem keepsRelay_of_spares (h : sparesLinks e = true) (hudp : (s.step H env e).endpointToCid = ∅)
    (hroom : (s.step H env e).relayCids.length < 2 ^ 62) : s.keepsRelay H env e := by
  have hlocal : e.isLocal = true := by
    unfold sparesLinks at h
    split at h
    · cases h
    · cases h
    · cases h
    · exact h
  refine ⟨fun ht => absurd h ?_, apart_of_no_udp hudp hroom⟩
  rcases tearsDown_local ht (inbound_isLocal hlocal) with ⟨rfl, -⟩ | ⟨rfl, -⟩ | ⟨gen, rfl, -⟩
  · exact Bool.false_ne_true
  · exact Bool.false_ne_true
  · exact Bool.false_ne_true

def serverFrame (b : StunBuilder) : Bytes :=
  let raw := b.build zeroHmac
  be16 raw.length ++ raw

def allocateResponse : StunBuilder :=
  let txn := Env.lan.txnId 9
  (⟨turnAllocateResponse, txn, []⟩ : StunBuilder).add
    (.tlv .xorRelayedAddress (encodeXorAddr Env.lan.net (Inet.dotted 192 0 2 1) 49152 txn))

def relayOnly : Session :=
  create .lan
    { turnServers := [{ server := Inet.dotted 192 0 2 1, tcpTransport := true }]
      candidateFilter := { relayOnly := true } }
    { carrierTcp := true } true 7

def relayedCheck : List Event :=
  [.gather, .turnStream false (serverFrame allocateResponse),
    .task (.turnAllocated (relayCandidate Env.lan.net ⟨Inet.dotted 192 0 2 1, 49152⟩)),
    .addRemoteCandidates [1] [2] [peerHost] false]

def relayedRequest : Bytes :=
  (peerRequest relayOnly.localPwd (Env.lan.txnId 77) false false 5).build zeroHmac

def dataIndication : StunBuilder :=
  let b : StunBuilder := ⟨turnDataIndication, Env.lan.txnId 8, []⟩
  (b.addXorPeerAddress Env.lan.net (Inet.dotted 10 0 0 2) 6000).add (.tlv .data relayedRequest)

def relayedExchange : List Event :=
  relayedCheck ++ [.turnStream false (serverFrame dataIndication)]

def sparesAlong (H : Hmac) (env : Env) (s : Session) : List Event → Bool
  | [] => true
  | e :: es =>
    let t := s.step H env e
    sparesLinks e && t.endpointToCid.entries.isEmpty && decide (t.relayCids.length < 2 ^ 62) &&
      t.sparesAlong H env es

private theorem along_of_sparesAlong {es : List Event} (h : s.sparesAlong H env es = true) :
    Along (step H env) (keepsRelay H env) s es := by
  induction es generalizing s with
  | nil => trivial
  | cons e es ih =>
    simp only [sparesAlong, Bool.and_eq_true, List.isEmpty_iff, decide_eq_true_eq] at h
    obtain ⟨⟨⟨hspares, hudp⟩, hroom⟩, hrest⟩ := h
    exact ⟨keepsRelay_of_spares hspares (AList.ext hudp) hroom, ih hrest⟩

/-- The peer's check is answered through the relay. -/
theorem relayed_request_answered :
    let s := relayOnly.run zeroHmac .lan relayedExchange
    let e : Event := .task (.relayStun ⟨Inet.dotted 10 0 0 2, 6000⟩ relayedRequest)
    s.links.RelayConsistent ∧ AnswersRelayed ⟨Inet.dotted 10 0 0 2, 6000⟩ (Env.lan.txnId 77) s
      (s.step zeroHmac .lan e) := by
  intro s e
  obtain ⟨hcons, hanswer⟩ := relay_ids_consistent zeroHmac .lan
    { turnServers := [{ server := Inet.dotted 192 0 2 1, tcpTransport := true }]
      candidateFilter := { relayOnly := true } }
    { carrierTcp := true } true 7 relayedExchange (along_of_sparesAlong (by decide +kernel))
  have harrives : (s.inbound e).any fun d =>
      (d.accepted zeroHmac .lan).any fun m =>
        decide (m.msgType = bindingRequest ∧ m.txnId = Env.lan.txnId 77) := by
    decide +kernel
  obtain ⟨d, hd, harrives⟩ := (any_eq_true _ _).mp harrives
  obtain ⟨m, hm, hreq⟩ := (any_eq_true _ _).mp harrives
  obtain ⟨hreq, htxn⟩ := of_decide_eq_true hreq
  have hturn : s.turn.isSome = true := by decide +kernel
  have hudp : (s.step zeroHmac .lan e).endpointToCid = ∅ :=
    AList.ext (by decide +kernel)
  have hroom : (s.step zeroHmac .lan e).relayCids.length < 2 ^ 62 := by
    decide +kernel
  rw [← htxn]
  exact ⟨hcons, hanswer _ _ d hd m hm hreq hturn (by decide) (apart_of_no_udp hudp hroom)⟩

/-- `restart` forgets where the relayed endpoint is, but not its id. -/
theorem relayed_endpoint_forgotten :
    ¬ ∃ H : Hmac, (relayOnly.run H .lan (relayedCheck ++ [.restart])).links.RelayConsistent := by
  rintro ⟨H, h⟩
  rw [run_isLocal (by decide) H zeroHmac] at h
  obtain ⟨-, hlook⟩ := h.known ⟨Inet.dotted 10 0 0 2, 6000⟩ 0xC000000000000000 (by decide +kernel)
  exact absurd hlook (by decide +kernel)

end Session

end LinkIce
