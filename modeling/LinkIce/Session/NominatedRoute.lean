import LinkIce.Session.Script

/-! Which way the traffic of a nominated pair leaves: the route of the check that was
answered, and the routes that the three senders derive from the nomination. -/
namespace LinkIce
open Stun Option

/-- How bytes leave: over a carrier under a connection id, or through our TURN allocation. -/
inductive Route
  | carrier (tcp : Bool) (cid : Cid)
  | turn (ep : Endpoint)
  deriving DecidableEq

namespace Effect

def route : Effect → Option Route
  | udpSend cid _ => some (.carrier false cid)
  | tcpSend cid _ => some (.carrier true cid)
  | relaySend ep _ => some (.turn ep)
  | _ => none

def isCheckOf (txn : TransactionId) : Effect → Bool
  | udpSend _ (.stun b) | tcpSend _ (.stun b) | relaySend _ (.stun b) =>
    b.msgType == bindingRequest && b.txnId == txn
  | _ => false

end Effect

def CheckPair.usesRelay (p : CheckPair) : Bool := p.loc.type = .relay || p.rem.type = .relay

/-- The nomination is replaced, or its connection is forgotten on close. -/
def Label.rewritesRoute : Label → Bool
  | .nominateOwn _ | .nominateDeferred .. | .nominateNow .. | .teardown => true
  | _ => false

namespace Session

def checkRoutes (txn : TransactionId) (s : Session) : List Route :=
  (s.log.filter (·.isCheckOf txn)).filterMap Effect.route

/-- One packet leaves, by `R`. -/
def LeavesBy (R : Route) (s t : Session) : Prop := ∃ e, t.log = e :: s.log ∧ e.route = some R

/-- Application data and keepalives leave by `R`, and so does a path-MTU probe if it leaves.
A lite session sends no keepalives. -/
structure Follows (env : Env) (R : Route) (s : Session) : Prop where
  data : ∀ buf, LeavesBy R s (s.sendOnStrand env buf)
  keepalive : s.cfg.liteMode = false → LeavesBy R s (s.sendKeepalive env)
  probe : s.cfg.pmtuActiveProbing = true → ∀ size,
    (s.sendPmtuProbe env size).log = s.log ∨ LeavesBy R s (s.sendPmtuProbe env size)

/-- The arguments of a call of `on_nominated` and the state in which it is made. -/
structure Nomination where
  state : Session
  origin : NominationOrigin
  ep : Endpoint
  relay : Bool
  cid : Cid
  tx : TransportType

namespace Nomination

def committed (n : Nomination) : Session :=
  n.state.commitNomination n.origin n.ep n.relay n.cid n.tx

end Nomination

/-- The call of `on_nominated` that `handle_check_response` makes, if it makes one. -/
def nominationBy (env : Env) (m : StunMessage) (s : Session) : Option Nomination :=
  if s.state ≠ .checking then none
  else
    (s.pairOf m.txnId).bind fun (i, p) =>
      let r := s.recordSuccess env m i p
      if !r.controlling then
        if p.pendingNomination then
          some ⟨r.modifyPair i fun p => { p with pendingNomination := false }, .deferred p.txnId,
            r.pendingNomEp, r.pendingNomRelay, r.pendingNomCid, r.pendingNomTx⟩
        else none
      else if r.cfg.aggressiveNomination || p.nomineeCheckSent then
        let c := r.nomineeCid env p
        some ⟨c.2, .checkResponse p.txnId, p.endpoint env.net,
          p.loc.type = .relay || p.rem.type = .relay, c.1, p.transportType⟩
      else none

variable {H : Hmac} {env : Env} {s t : Session} {R : Route} {m : StunMessage} {n : Nomination}
  {i : ℕ} {p : CheckPair} {buf : Bytes}

theorem handleCheckResponse_of_nominationBy (h : s.nominationBy env m = some n) :
    s.handleCheckResponse env m = n.state.onNominated env n.origin n.ep n.relay n.cid n.tx := by
  unfold nominationBy at h
  unfold handleCheckResponse
  split_ifs at h ⊢ with hs
  obtain ⟨⟨i, p⟩, hp, h⟩ := bind_eq_some_iff.mp h
  rw [hp]
  dsimp only [onPairSucceeded] at h ⊢
  split_ifs at h ⊢ with hc hn hn
  · obtain rfl := some.inj h
    rfl
  · obtain rfl := some.inj h
    rfl

theorem nominationBy_eq_some (hp : s.pairOf m.txnId = some (i, p))
    (h : s.nominationBy env m = some n) :
    let r := s.recordSuccess env m i p
    let c := r.nomineeCid env p
    (s.controlling = false ∧ n = ⟨r.modifyPair i fun p => { p with pendingNomination := false },
      .deferred p.txnId, r.pendingNomEp, r.pendingNomRelay, r.pendingNomCid, r.pendingNomTx⟩) ∨
    (s.controlling = true ∧ n = ⟨c.2, .checkResponse p.txnId, p.endpoint env.net, p.usesRelay, c.1,
      p.transportType⟩) := by
  have hrole : (s.recordSuccess env m i p).controlling = s.controlling :=
    congrArg Core.controlling (recordSuccess_core env m i p s)
  unfold nominationBy at h
  split_ifs at h with hs
  rw [hp, bind_some] at h
  dsimp only at h
  rw [hrole] at h
  split_ifs at h with hc hn hn
  · exact .inl ⟨by simpa using hc, (some.inj h).symm⟩
  · exact .inr ⟨by simpa using hc, (some.inj h).symm⟩

theorem nominationBy_cfg (hp : s.pairOf m.txnId = some (i, p))
    (h : s.nominationBy env m = some n) : n.state.cfg = s.cfg := by
  have hcfg : (s.recordSuccess env m i p).cfg = s.cfg :=
    congrArg Core.cfg (recordSuccess_core env m i p s)
  rcases nominationBy_eq_some hp h with ⟨-, rfl⟩ | ⟨-, rfl⟩
  exacts [hcfg, (nomineeCid_quiet env _ p).cfg.trans hcfg]

theorem recordSuccess_routes :
    (s.recordSuccess env m i p).endpointToCid = s.endpointToCid ∧
      (s.recordSuccess env m i p).turn = s.turn ∧
      s.draws ≤ (s.recordSuccess env m i p).draws := by
  have hnote : (s.noteResponse env m p).endpointToCid = s.endpointToCid ∧
      (s.noteResponse env m p).turn = s.turn ∧ s.draws ≤ (s.noteResponse env m p).draws := by
    unfold noteResponse learnPrflx sampleRtt noteCandidateTypes pushLocal locked
    split_ifs <;> split <;> (try split_ifs) <;>
      first | exact ⟨rfl, rfl, le_rfl⟩ | exact ⟨rfl, rfl, Nat.le_succ _⟩
  rw [recordSuccess]
  generalize s.noteResponse env m p = t at hnote ⊢
  exact hnote

/-- The nomination keeps to the way `R` that a check of `p` has left by. The controlling side
names a UDP pair, and its endpoint still has the connection of the check; the slot of the controlled
side was filled over that connection. Neither takes the pair for a relayed one. Probes know the
UDP carrier only. -/
def Straight (env : Env) (p : CheckPair) (R : Route) (s : Session) : Prop :=
  if s.controlling = true then
    let cid := (s.endpointToCid.lookup (p.endpoint env.net)).getD 0
    transportIsTcp p.transportType = false ∧ s.hasCarrier = true ∧ cid ≠ 0 ∧
      R = .carrier false cid ∧ (p.usesRelay = false ∨ s.turn = none)
  else
    let tcp := transportIsTcp s.pendingNomTx
    s.carrierUp tcp = true ∧ s.pendingNomCid ≠ 0 ∧ R = .carrier tcp s.pendingNomCid ∧
      (s.pendingNomRelay = false ∨ s.turn = none) ∧
      (tcp = true → s.hasCarrier = true → s.cfg.pmtuActiveProbing = false)

instance (env : Env) (p : CheckPair) (R : Route) (s : Session) : Decidable (s.Straight env p R) :=
  inferInstanceAs (Decidable (ite _ (_ ∧ _ ∧ _ ∧ _ ∧ _) (_ ∧ _ ∧ _ ∧ _ ∧ _)))

def namesRelay (p : CheckPair) (s : Session) : Bool :=
  if s.controlling then p.usesRelay else s.pendingNomRelay

/-- No connection opened from now on has the id of `R`. -/
def OpensAnew (env : Env) (R : Route) (s : Session) : Prop :=
  ∀ kind k ep tcp, s.draws ≤ k → R ≠ .carrier tcp (env.connect kind k ep)

/-! ### The three senders -/

/-- The fields that the senders read agree with `R`. -/
@[mk_iff]
structure OnRoute (R : Route) (s : Session) : Prop where
  route : R = .carrier (transportIsTcp s.nominatedTransport) s.nominatedCid
  cid : s.nominatedCid ≠ 0
  carrier : s.carrierUp (transportIsTcp s.nominatedTransport) = true
  direct : s.usesRelay = false ∨ s.turn = none
  probe : transportIsTcp s.nominatedTransport = true → s.hasCarrier = true →
    s.cfg.pmtuActiveProbing = false

theorem not_leavesBy_of_log_eq (h : t.log = s.log) : ¬ LeavesBy R s t := by
  rintro ⟨e, he, -⟩
  rw [h] at he
  exact List.cons_ne_self _ _ he.symm

theorem carrierSend_leavesBy {tcp : Bool} {cid : Cid} {p : Payload} :
    LeavesBy R s (s.carrierSend tcp cid p) ↔
      R = .carrier tcp cid ∧ s.carrierUp tcp = true := by
  unfold carrierSend carrierUp
  cases tcp
  all_goals
    simp only [if_true, Bool.false_eq_true, if_false]
    split_ifs with h
    · simp [LeavesBy, emit, Effect.route, h, eq_comm]
    · simp [not_leavesBy_of_log_eq, h]

theorem numberFrame_fields (buf : Bytes) (s : Session) :
    ∃ n, (s.numberFrame buf).2 = { s with sendDataSeq := n } := by
  unfold numberFrame
  split_ifs
  exacts [⟨_, rfl⟩, ⟨s.sendDataSeq, rfl⟩]

theorem sendOnStrand_leavesBy (hc : s.nominatedCid ≠ 0)
    (hd : s.usesRelay = false ∨ s.turn = none) : LeavesBy R s (s.sendOnStrand env buf) ↔
      R = .carrier (transportIsTcp s.nominatedTransport) s.nominatedCid ∧
        s.carrierUp (transportIsTcp s.nominatedTransport) = true := by
  obtain ⟨n, hn⟩ := numberFrame_fields buf s
  have hroute : nominatedRoute env { s with sendDataSeq := n } =
      (s.nominatedCid, { s with sendDataSeq := n }) := by simp [nominatedRoute, hc]
  have hrelay : (s.usesRelay && s.turn.isSome) = false := by
    rcases hd with hd | hd <;> simp [hd]
  unfold sendOnStrand
  dsimp only
  rw [if_neg (by simp [hrelay]), hn, hroute, if_neg hc]
  exact carrierSend_leavesBy

theorem sendOnStrand_relayed (hr : s.usesRelay = true) (ht : s.turn ≠ none) :
    LeavesBy (.turn s.nominatedEp) s (s.sendOnStrand env buf) := by
  obtain ⟨n, hn⟩ := numberFrame_fields buf s
  unfold sendOnStrand
  dsimp only
  rw [if_pos (by simp [hr, isSome_iff_ne_none, ht]), hn]
  exact ⟨_, rfl, rfl⟩

theorem sendKeepalive_leavesBy : LeavesBy R s (s.sendKeepalive env) ↔
    R = .carrier (transportIsTcp s.nominatedTransport) s.nominatedCid ∧ s.nominatedCid ≠ 0 ∧
      s.carrierUp (transportIsTcp s.nominatedTransport) = true := by
  unfold sendKeepalive
  split_ifs with h
  · simp [not_leavesBy_of_log_eq, h]
  · rw [and_iff_right h]
    exact carrierSend_leavesBy (s := s.drawn)

private theorem armPmtuTimer_log : s.armPmtuTimer.log = s.log := by
  unfold armPmtuTimer
  split_ifs <;> rfl

theorem sendPmtuProbe_leavesBy {size : ℕ} (hc : s.nominatedCid ≠ 0) (hu : s.hasCarrier = true) :
    LeavesBy R s (s.sendPmtuProbe env size) ↔ R = .carrier false s.nominatedCid := by
  unfold sendPmtuProbe
  rw [if_neg (by simp [hc, hu])]
  constructor
  · rintro ⟨e, he, hr⟩
    rw [armPmtuTimer_log] at he
    obtain rfl := (List.cons.inj he).1
    exact (some.inj hr).symm
  · rintro rfl
    exact ⟨_, armPmtuTimer_log, rfl⟩

theorem LeavesBy.unique {R' : Route} (h : LeavesBy R s t) (h' : LeavesBy R' s t) : R = R' := by
  obtain ⟨e, he, hr⟩ := h
  obtain ⟨e', he', hr'⟩ := h'
  obtain rfl := (List.cons.inj (he.symm.trans he')).1
  exact some.inj (hr.symm.trans hr')

theorem OnRoute.follows (h : OnRoute R s) : Follows env R s where
  data buf := (sendOnStrand_leavesBy h.cid h.direct).mpr ⟨h.route, h.carrier⟩
  keepalive _ := sendKeepalive_leavesBy.mpr ⟨h.route, h.cid, h.carrier⟩
  probe hp size := by
    by_cases hu : s.hasCarrier = true
    · right
      have htcp : transportIsTcp s.nominatedTransport = false := by
        by_contra htcp
        rw [h.probe (Bool.eq_true_of_not_eq_false htcp) hu] at hp
        cases hp
      rw [sendPmtuProbe_leavesBy h.cid hu, h.route, htcp]
    · left
      simp [sendPmtuProbe, hu]

theorem Follows.onRoute (h : Follows env R s) (hl : s.cfg.liteMode = false) : OnRoute R s := by
  obtain ⟨hroute, hcid, hcarrier⟩ := sendKeepalive_leavesBy.mp (h.keepalive hl)
  refine ⟨hroute, hcid, hcarrier, ?_, ?_⟩
  · by_contra hd
    simp only [not_or, Bool.not_eq_false] at hd
    have hturn := (h.data []).unique (sendOnStrand_relayed hd.1 hd.2)
    rw [hroute] at hturn
    cases hturn
  · intro htcp hu
    by_contra hp
    rcases h.probe (Bool.eq_true_of_not_eq_false hp) 0 with hsilent | hleaves
    · exact not_leavesBy_of_log_eq hsilent ((sendPmtuProbe_leavesBy hcid hu).mpr rfl)
    · rw [sendPmtuProbe_leavesBy hcid hu, hroute, htcp] at hleaves
      cases hleaves

/-! ### The condition on the state before -/

theorem recordSuccess_straight :
    (s.recordSuccess env m i p).Straight env p R ↔ s.Straight env p R := by
  have hcore := recordSuccess_core env m i p s
  obtain ⟨hmap, hturn, -⟩ : (s.recordSuccess env m i p).endpointToCid = _ ∧ _ :=
    recordSuccess_routes
  generalize s.recordSuccess env m i p = r at *
  have hrole : r.controlling = s.controlling := congrArg Core.controlling hcore
  have hcfg : r.cfg = s.cfg := congrArg Core.cfg hcore
  have hup : r.hasCarrier = s.hasCarrier := congrArg Core.hasCarrier hcore
  have hupTcp : r.hasCarrierTcp = s.hasCarrierTcp := congrArg Core.hasCarrierTcp hcore
  have hcid : r.pendingNomCid = s.pendingNomCid := congrArg Core.pendingNomCid hcore
  have htx : r.pendingNomTx = s.pendingNomTx := congrArg Core.pendingNomTx hcore
  have hrelay : r.pendingNomRelay = s.pendingNomRelay := congrArg Core.pendingNomRelay hcore
  simp only [Straight, carrierUp, hmap, hturn, hrole, hcfg, hup, hupTcp, hcid, htx, hrelay]

theorem nomineeCid_turn : (s.nomineeCid env p).2.turn = s.turn := by
  unfold nomineeCid ensureRemoteTcpCid relayCidForEndpoint ensureRemoteCid
  dsimp only
  split_ifs
  all_goals first | rfl | (split <;> rfl)

theorem nomineeCid_direct (h : p.usesRelay = false ∨ s.turn = none) :
    s.nomineeCid env p =
      if transportIsTcp p.transportType then s.ensureRemoteTcpCid env (p.endpoint env.net)
      else s.ensureRemoteCid env (p.endpoint env.net) := by
  have hdirect : ¬ (p.loc.type = .relay ∧ s.turnAllocated = true) := by
    rintro ⟨hloc, halloc⟩
    rcases h with h | h
    · simp [CheckPair.usesRelay, hloc] at h
    · simp [turnAllocated, h] at halloc
  rw [nomineeCid, if_neg hdirect]

/-- The connection of a pair without a relay is the known one of a UDP pair, or a new one. -/
theorem nomineeCid_cases (h : p.usesRelay = false ∨ s.turn = none) :
    let cid := (s.nomineeCid env p).1
    cid = 0 ∨ (∃ kind, cid = env.connect kind s.draws (p.endpoint env.net)) ∨
      (transportIsTcp p.transportType = false ∧ s.hasCarrier = true ∧
        s.endpointToCid.lookup (p.endpoint env.net) = some cid) := by
  rw [nomineeCid_direct h]
  unfold ensureRemoteTcpCid ensureRemoteCid
  cases hlook : s.endpointToCid.lookup (p.endpoint env.net) with
  | some cid =>
    dsimp only
    split_ifs with htcp htcpUp hcid hup
    exacts [.inl rfl, .inl rfl, .inr (.inl ⟨.tcp, rfl⟩), .inl rfl,
      .inr (.inr ⟨by simpa using htcp, by simpa using hup, rfl⟩)]
  | none =>
    dsimp only
    split_ifs
    exacts [.inl rfl, .inl rfl, .inr (.inl ⟨.tcp, rfl⟩), .inl rfl, .inl rfl,
      .inr (.inl ⟨.udp, rfl⟩)]

theorem onRoute_committed : OnRoute R n.committed ↔
    R = .carrier (transportIsTcp n.tx) n.cid ∧ n.cid ≠ 0 ∧
      n.state.carrierUp (transportIsTcp n.tx) = true ∧ (n.relay = false ∨ n.state.turn = none) ∧
      (transportIsTcp n.tx = true → n.state.hasCarrier = true →
        n.state.cfg.pmtuActiveProbing = false) :=
  onRoute_iff R n.committed

theorem onRoute_of_straight (hp : s.pairOf m.txnId = some (i, p))
    (h : s.nominationBy env m = some n) (hst : s.Straight env p R) : OnRoute R n.committed := by
  have hrec : (s.recordSuccess env m i p).Straight env p R := recordSuccess_straight.mpr hst
  have hrole : (s.recordSuccess env m i p).controlling = s.controlling :=
    congrArg Core.controlling (recordSuccess_core env m i p s)
  have hn := nominationBy_eq_some hp h
  rw [← hrole] at hn
  clear hst hp h
  generalize s.recordSuccess env m i p = r at *
  rcases hn with ⟨hc, rfl⟩ | ⟨hc, rfl⟩
  · rw [Straight, if_neg (by simp [hc])] at hrec
    obtain ⟨hup, hcid, hroute, hdirect, hprobe⟩ := hrec
    exact onRoute_committed.mpr ⟨hroute, hcid, hup, hdirect, hprobe⟩
  · rw [Straight, if_pos hc] at hrec
    obtain ⟨hudp, hup, hcid, rfl, hdirect⟩ := hrec
    obtain ⟨cid, hlook⟩ : ∃ cid, r.endpointToCid.lookup (p.endpoint env.net) = some cid := by
      cases hlook : r.endpointToCid.lookup (p.endpoint env.net) with
      | none => exact absurd (by rw [hlook]; rfl) hcid
      | some cid => exact ⟨cid, rfl⟩
    rw [nomineeCid_direct hdirect, if_neg (by simp [hudp]), ensureRemoteCid, hlook,
      if_neg (by simp [hup])]
    rw [hlook] at hcid
    rw [onRoute_committed]
    dsimp only
    rw [hudp]
    exact ⟨rfl, hcid, hup, hdirect, fun htcp => absurd htcp Bool.false_ne_true⟩

theorem straight_of_onRoute (hp : s.pairOf m.txnId = some (i, p))
    (h : s.nominationBy env m = some n) (hnew : s.OpensAnew env R) (hon : OnRoute R n.committed) :
    s.Straight env p R := by
  rw [← recordSuccess_straight (m := m) (i := i)]
  have hrole : (s.recordSuccess env m i p).controlling = s.controlling :=
    congrArg Core.controlling (recordSuccess_core env m i p s)
  have hdraws : s.draws ≤ (s.recordSuccess env m i p).draws := recordSuccess_routes.2.2
  have hn := nominationBy_eq_some hp h
  rw [← hrole] at hn
  clear hp h
  generalize s.recordSuccess env m i p = r at *
  rcases hn with ⟨hc, rfl⟩ | ⟨hc, rfl⟩
  · obtain ⟨hroute, hcid, hup, hdirect, hprobe⟩ := onRoute_committed.mp hon
    rw [Straight, if_neg (by simp [hc])]
    exact ⟨hup, hcid, hroute, hdirect, hprobe⟩
  · obtain ⟨hroute, hcid, -, hdirect, -⟩ := onRoute_committed.mp hon
    dsimp only at hroute hcid hdirect
    rw [nomineeCid_turn] at hdirect
    rw [Straight, if_pos hc]
    rcases nomineeCid_cases hdirect with hzero | ⟨kind, hopen⟩ | ⟨hudp, hup, hlook⟩
    · exact absurd hzero hcid
    · exact absurd (hroute.trans (congrArg (Route.carrier _) hopen)) (hnew _ _ _ _ hdraws)
    · rw [hlook]
      rw [hudp] at hroute
      exact ⟨hudp, hup, hcid, hroute, hdirect⟩

theorem nominationBy_relay (hp : s.pairOf m.txnId = some (i, p))
    (h : s.nominationBy env m = some n) : n.relay = s.namesRelay p := by
  rcases nominationBy_eq_some hp h with ⟨hrole, rfl⟩ | ⟨hrole, rfl⟩
  · rw [namesRelay, hrole]
    exact congrArg Core.pendingNomRelay (recordSuccess_core env m i p s)
  · rw [namesRelay, hrole]
    rfl

/-! ### While the nomination stands -/

structure SameRoute (s t : Session) : Prop where
  state : t.state = s.state
  ep : t.nominatedEp = s.nominatedEp
  cid : s.nominatedCid ≠ 0 → t.nominatedCid = s.nominatedCid
  transport : t.nominatedTransport = s.nominatedTransport
  relay : t.usesRelay = s.usesRelay
  carrier : t.hasCarrier = s.hasCarrier
  carrierTcp : t.hasCarrierTcp = s.hasCarrierTcp
  cfg : t.cfg = s.cfg

theorem SameRoute.of_keepsCore {P : Effect → Bool} (h : KeepsCore P s t) : SameRoute s t where
  state := h.state
  ep := congrArg Core.nominatedEp h.core
  cid := h.nominatedCid
  transport := congrArg Core.nominatedTransport h.core
  relay := congrArg Core.usesRelay h.core
  carrier := congrArg Core.hasCarrier h.core
  carrierTcp := congrArg Core.hasCarrierTcp h.core
  cfg := h.cfg

private theorem buildCheckList_sameRoute : SameRoute s (s.buildCheckList env) where
  state := congrArg Core.state (buildCheckList_core env s)
  ep := congrArg Core.nominatedEp (buildCheckList_core env s)
  cid _ := by
    obtain ⟨_, _, _, h⟩ := buildCheckList_eq
    rw [h]
  transport := congrArg Core.nominatedTransport (buildCheckList_core env s)
  relay := congrArg Core.usesRelay (buildCheckList_core env s)
  carrier := congrArg Core.hasCarrier (buildCheckList_core env s)
  carrierTcp := congrArg Core.hasCarrierTcp (buildCheckList_core env s)
  cfg := congrArg Core.cfg (buildCheckList_core env s)

theorem act_sameRoute {l : Option Label} (h : Act env s l t)
    (hl : ∀ a, l = some a → a.rewritesRoute = false) (ht : t.state = .connected) :
    SameRoute s t := by
  have hreset (u : Session) : (u.reset env).state = .new := by
    obtain ⟨n, -, hc⟩ := reset_core env u
    exact congrArg Core.state hc
  cases h with
  | quiet h | work h | release h | deliver h => exact .of_keepsCore h.toKeepsCore
  | turnInput h => exact .of_keepsCore h
  | gather | waitRemote | startChecking | recover | exhaust | expire | loseConsent | close =>
    cases ht
  | rebuild => exact buildCheckList_sameRoute
  | check i | liteCheck i =>
    obtain ⟨ps, rs, h⟩ := sendCheck_keeps env s
    have hr := SameRoute.of_keepsCore h.toKeepsCore
    exact ⟨hr.state, hr.ep, hr.cid, hr.transport, hr.relay, hr.carrier, hr.carrierTcp, hr.cfg⟩
  | pick =>
    obtain ⟨sel, ps, rs, h⟩ := pickNominee_keeps env s
    have hr := SameRoute.of_keepsCore h.toKeepsCore
    exact ⟨hr.state, hr.ep, hr.cid, hr.transport, hr.relay, hr.carrier, hr.carrierTcp, hr.cfg⟩
  | respond | reject => exact .of_keepsCore (reply_keeps).toKeepsCore
  | nominateOwn | nominateDeferred | nominateNow | teardown => cases hl _ rfl
  | restart => cases (hreset s).symm.trans ht
  | autoRestart now => cases (hreset (s.countAutoRestart now)).symm.trans ht
  | _ => exact ⟨rfl, rfl, fun _ => rfl, rfl, rfl, rfl, rfl, rfl⟩

/-- A direct route is kept as long as the session stays Connected. -/
def StaysOn (R : Route) (s : Session) : Prop :=
  s.state = .connected → OnRoute R s ∧ s.usesRelay = false

theorem SameRoute.staysOn (h : SameRoute s t) (hs : StaysOn R s) : StaysOn R t := by
  intro ht
  obtain ⟨ho, hr⟩ := hs (h.state.symm.trans ht)
  have hcid := h.cid ho.cid
  have hrelay := h.relay.trans hr
  refine ⟨⟨?_, ?_, ?_, .inl hrelay, ?_⟩, hrelay⟩
  · rw [h.transport, hcid]
    exact ho.route
  · rw [hcid]
    exact ho.cid
  · rw [carrierUp, h.transport, h.carrier, h.carrierTcp]
    exact ho.carrier
  · rw [h.transport, h.carrier, h.cfg]
    exact ho.probe

theorem steps_staysOn {A : Set Label} (h : Steps env A s t)
    (hA : ∀ l ∈ A, l.rewritesRoute = false) (hs : StaysOn R s) : StaysOn R t := by
  refine h.invariant (I := StaysOn R) (fun hl hact hu ht => ?_) hs
  exact (act_sameRoute hact (fun a ha => hA a (hl a ha)) ht).staysOn hu ht

theorem licence_keepsRoute : NominationLicence { l | l.rewritesRoute = false } s where
  refresh _ _ := by rfl
  recover _ _ _ := by rfl
  exhaust _ _ _ _ _ _ := by rfl
  restart _ _ _ := ⟨by rfl, by rfl, gatherLabels_subset (by rfl) (by rfl) (by rfl) (by rfl), by rfl⟩

/-- Nothing that the event can lead to replaces the nomination or forgets its connection. -/
def keepsNomination (H : Hmac) (env : Env) (s : Session) (e : Event) : Prop :=
  ∀ l ∈ s.allowed H env e, l.rewritesRoute = false

/-- Everything leaves the way that the checks of the transaction have left. -/
def FollowsChecks (env : Env) (txn : TransactionId) (s u : Session) : Prop :=
  ∀ R ∈ s.checkRoutes txn, Follows env R u

/-- The response nominates the answered pair. Traffic leaves the way the check left if the state
before is straight for it, and outside lite mode only then, as long as new connections get new ids.
On a pair that is not taken for a relayed one this lasts until the nomination is replaced. -/
theorem traffic_follows_checks (H : Hmac) (env : Env) {s : Session} {m : StunMessage}
    {n : Nomination} {i : ℕ} {p : CheckPair} (hp : s.pairOf m.txnId = some (i, p))
    (h : s.nominationBy env m = some n) :
    ((∀ R ∈ s.checkRoutes m.txnId, s.Straight env p R) →
      FollowsChecks env m.txnId s n.committed) ∧
    (s.cfg.liteMode = false → (∀ R ∈ s.checkRoutes m.txnId, s.OpensAnew env R) →
      FollowsChecks env m.txnId s n.committed → ∀ R ∈ s.checkRoutes m.txnId, s.Straight env p R) ∧
    ((∀ R ∈ s.checkRoutes m.txnId, s.Straight env p R) → s.namesRelay p = false → ∀ es,
      Along (step H env) (keepsNomination H env) (s.handleCheckResponse env m) es →
      ((s.handleCheckResponse env m).run H env es).state = .connected →
      FollowsChecks env m.txnId s ((s.handleCheckResponse env m).run H env es)) := by
  refine ⟨?_, ?_, ?_⟩
  · intro hst R hR
    exact (onRoute_of_straight hp h (hst R hR)).follows
  · intro hlite hnew hfol R hR
    refine straight_of_onRoute hp h (hnew R hR) ((hfol R hR).onRoute ?_)
    exact (congrArg IceConfig.liteMode (nominationBy_cfg hp h)).trans hlite
  · intro hst hrelay es hes hcon R hR
    have hcommit : StaysOn R n.committed := fun _ =>
      ⟨onRoute_of_straight hp h (hst R hR), (nominationBy_relay hp h).trans hrelay⟩
    have hrest : StaysOn R (s.handleCheckResponse env m) := by
      rw [handleCheckResponse_of_nominationBy h]
      exact steps_staysOn (licence_keepsRoute.afterCommit _ _ _ _ _) (fun _ hl => hl) hcommit
    have hlast := hes.invariant (fun s e he hs => steps_staysOn (step_steps H env s e) he hs) hrest
    exact (hlast hcon).1.follows

/-- An aggressive controller that has checked a host candidate of its peer over UDP. -/
def udpChecked : Session :=
  (create .lan { aggressiveNomination := true } {} true 7).run zeroHmac .lan
    [.gather, .addRemoteCandidates [1] [2] [peerHost] false]

def udpAnswer : StunMessage := (peerResponse [2] (Env.lan.txnId 3)).message Env.lan.net

theorem udp_traffic_follows : ∃ n, udpChecked.nominationBy .lan udpAnswer = some n ∧
    udpChecked.checkRoutes udpAnswer.txnId ≠ [] ∧
    FollowsChecks .lan udpAnswer.txnId udpChecked n.committed ∧
    FollowsChecks .lan udpAnswer.txnId udpChecked
      (udpChecked.handleCheckResponse .lan udpAnswer) := by
  obtain ⟨n, hn⟩ := isSome_iff_exists.mp
    (show (udpChecked.nominationBy .lan udpAnswer).isSome = true by decide +kernel)
  have hany : (udpChecked.pairOf udpAnswer.txnId).any (fun ip => !udpChecked.namesRelay ip.2 &&
      (udpChecked.checkRoutes udpAnswer.txnId).all fun R =>
        decide (udpChecked.Straight .lan ip.2 R)) = true := by
    decide +kernel
  obtain ⟨⟨i, p⟩, hp, hst⟩ := (any_eq_true _ _).mp hany
  simp only [Bool.and_eq_true, Bool.not_eq_true', List.all_eq_true, decide_eq_true_eq] at hst
  obtain ⟨hnow, -, hlater⟩ := traffic_follows_checks zeroHmac .lan hp hn
  exact ⟨n, hn, by decide +kernel, hnow hst.2, hlater hst.2 hst.1 [] trivial (by decide +kernel)⟩

def tcpChecked : Session :=
  (create .lan { aggressiveNomination := true } { carrierTcp := true } true 7).run
    zeroHmac .lan
    [.gather, .addRemoteCandidates [1] [2] [{ peerHost with transport := .tcpPassive }] false]

/-- The nomination opens a TCP connection of its own, which was never checked. -/
theorem tcp_traffic_strays : ∃ n, tcpChecked.nominationBy .lan udpAnswer = some n ∧
    ¬ FollowsChecks .lan udpAnswer.txnId tcpChecked n.committed := by
  have hany : (tcpChecked.nominationBy .lan udpAnswer).any (fun n =>
      (tcpChecked.checkRoutes udpAnswer.txnId).any fun R => decide
        ((n.committed.sendOnStrand .lan []).log.head?.bind Effect.route ≠ some R)) = true := by
    decide +kernel
  obtain ⟨n, hn, hstray⟩ := (any_eq_true _ _).mp hany
  obtain ⟨R, hR, hne⟩ := List.any_eq_true.mp hstray
  refine ⟨n, hn, fun h => ?_⟩
  obtain ⟨e, he, hr⟩ := (h R hR).data []
  rw [he] at hne
  exact of_decide_eq_true hne hr

end Session

end LinkIce
