import LinkIce.Link.Reload
import LinkIce.Link.State
import LinkIce.Session.PathMtuState
import LinkIce.Session.TurnFailover
import LinkIce.Turn.Channels

/-! The path MTU that the link tells its users, and what becomes of a frame of that size. -/
namespace LinkIce
open Stun List Option

theorem length_encodeChannelData {channel : ℕ} {payload : Bytes} :
    (encodeChannelData channel payload).length = align4 payload.length + 4 := by
  simp only [encodeChannelData, length_append, length_be16, length_replicate, align4]
  omega

namespace TurnClient

variable {H : Hmac} {net : Inet} {c : TurnClient} {txn : TransactionId} {peer : Endpoint}
  {bytes data d : Bytes}

theorem le_of_mem_sendToServer (h : d ∈ c.sendToServer bytes) : bytes.length ≤ d.length := by
  unfold sendToServer at h
  split at h
  · cases h
  · split at h
    · rw [mem_toList, encodeStreamFrame] at h
      split at h
      · cases h
      · obtain rfl := some.inj h
        simp
    · rw [mem_singleton.mp h]

theorem sendToServer_eq_nil : c.sendToServer bytes = [] ↔
    c.serverCid = 0 ∨ c.streamFraming = true ∧ 0xFFFF < bytes.length := by
  unfold sendToServer encodeStreamFrame
  split_ifs <;> simp_all

/-- The size of data of `n` bytes in a channel, or in an indication with the peer's address. -/
def wrappedSize (net : Inet) (c : TurnClient) (peer : Endpoint) (n : ℕ) : ℕ :=
  align4 n + if (c.peerToChannel.lookup peer).getD 0 ≠ 0 then 4
    else if (net.pton4 peer.ip).isSome then 36
    else if (net.pton6 peer.ip).isSome then 48
    else 32

theorem exists_wrapped : ∃ b : Bytes, b.length = c.wrappedSize net peer data.length ∧
    c.sendIndication H net txn peer data = c.sendToServer b := by
  unfold sendIndication wrappedSize
  dsimp only
  by_cases hchannel : (c.peerToChannel.lookup peer).getD 0 ≠ 0
  · rw [if_pos hchannel, if_pos hchannel]
    exact ⟨_, length_encodeChannelData, rfl⟩
  · rw [if_neg hchannel, if_neg hchannel]
    refine ⟨_, ?_, rfl⟩
    rw [StunBuilder.length_build]
    simp only [StunBuilder.attrsSize, StunBuilder.addData, StunBuilder.addXorPeerAddress,
      StunBuilder.add, nil_append, cons_append, map_cons, map_nil,
      sum_cons, sum_nil, Attr.valueLength, length_encodeXorAddr]
    split_ifs <;> simp [align4] <;> omega

theorem sendIndication_eq_nil : c.sendIndication H net txn peer data = [] ↔
    c.serverCid = 0 ∨ c.streamFraming = true ∧ 0xFFFF < c.wrappedSize net peer data.length := by
  obtain ⟨b, hlen, hsend⟩ := @exists_wrapped H net c txn peer data
  rw [hsend, sendToServer_eq_nil, hlen]

theorem sendIndication_grows (h : d ∈ c.sendIndication H net txn peer data) :
    data.length + 4 ≤ d.length := by
  obtain ⟨b, hlen, hsend⟩ := @exists_wrapped H net c txn peer data
  rw [hsend] at h
  refine le_trans ?_ (hlen.symm.trans_le (le_of_mem_sendToServer h))
  have hpad := le_align4 data.length
  unfold wrappedSize
  split_ifs <;> omega

end TurnClient

/-- The datagrams of one effect; `turn` is the client that relayed data goes through. -/
def Effect.datagrams (H : Hmac) (net : Inet) (txn : TransactionId) (turn : Option TurnClient) :
    Effect → List Bytes
  | udpSend _ p => [p.bytes H]
  | relaySend ep p =>
    match turn with
    | some c => if c.carrier.isStream then [] else c.sendIndication H net txn ep (p.bytes H)
    | none => []
  | _ => []

namespace Session

variable {H : Hmac} {env : Env} {s t : Session} {e : Event} {es : List Event} {n overhead : ℕ}

/-! ### The path MTU in use only rises -/

theorem goOn_effective (env : Env) {p : PathMtuProbe} (hp : s.pmtuProbe = some p)
    (hin : s.pmtuInflight = none) (hs : s.search.Consistent) :
    (s.goOn env p).search.effective = s.search.effective := by
  unfold goOn
  split
  · rfl
  · rcases startPathMtuProbe_search hp hin hs with ⟨hsame, -⟩ | ⟨-, hl⟩
    · rw [hsame]
    · rw [hl]
      rfl

theorem onPathMtuAck_rises (h : s.search.Consistent) (hin : s.pmtuInflight.isSome = true) :
    s.search.effective ≤ (s.onPathMtuAck env).search.effective := by
  obtain ⟨p, hp, hsearching, -⟩ := h.flying hin
  obtain ⟨hvalid, heff⟩ := h.probe p hp
  have hgo := goOn_effective env (s := s.settled true p.onProbeAck (s.pmtuProbeGen + 1)) rfl rfl
    (h.settle_acked hp hin _)
  have hup : s.search.effective ≤ p.onProbeAck.effective := by
    rw [← heff]
    exact hvalid.le_onProbeAck hsearching
  rw [onPathMtuAck_eq env hp]
  generalize (s.settled true p.onProbeAck (s.pmtuProbeGen + 1)).goOn env p.onProbeAck = t at hgo ⊢
  exact hup.trans hgo.symm.le

theorem onPathMtuProbeTimeout_rises (h : s.search.Consistent) :
    s.search.effective ≤ (s.onPathMtuProbeTimeout env).search.effective := by
  cases hin : s.pmtuInflight with
  | none => rw [onPathMtuProbeTimeout, if_pos (by simp [hin])]
  | some txn =>
    have hfly : s.search.inflight.isSome = true := by simp [search, hin]
    obtain ⟨p, hp, -⟩ := h.flying hfly
    have hgo := goOn_effective env (s := s.settled false p.onProbeLoss s.pmtuProbeGen) rfl rfl
      (h.settle_lost hp hfly _)
    have hsame : p.onProbeLoss.effective = s.search.effective :=
      (PathMtuProbe.onProbeLoss_effective).trans (h.probe p hp).2
    rw [onPathMtuProbeTimeout_eq hp hfly, hgo]
    exact hsame.symm.le

theorem beginPathMtu_rises (h : s.search.Consistent) :
    s.search.effective ≤ (s.beginPathMtu env).search.effective := by
  rw [beginPathMtu_eq]
  split
  · rename_i hstart
    have hnone : s.pmtuProbe = none := isNone_iff_eq_none.mp hstart.2
    have hin : s.begun.pmtuInflight = none := (h.unstarted hnone).1
    rcases startPathMtuProbe_search rfl hin (begun_consistent h hnone) with ⟨hsame, -⟩ | ⟨-, hl⟩
    · rw [hsame]
      exact le_rfl
    · rw [hl]
      exact le_rfl
  · exact le_rfl

theorem Passage.rises (h : Passage env s t) (hs : s.search.Consistent) :
    s.search.effective ≤ t.search.effective := by
  cases h with
  | kept h => rw [h.search]
  | acked hin ht => exact ht ▸ onPathMtuAck_rises hs hin
  | expired gen _ _ ht => exact ht ▸ onPathMtuProbeTimeout_rises (dequeue_consistent hs)
  | stale gen _ ht => exact ht ▸ le_rfl
  | gathered u hu ht => rw [ht.search, (gatherPortmap_keeps).2.1, hu.search]
  | closed u hu ht => rw [ht.search, releasePortmapMapping_search, hu.search]
  | nominated v origin ep relay cid tx hv ht =>
    have hsearch : ((v.announced env origin ep relay cid tx).onKeepalive env).search = s.search :=
      ((onKeepalive_roams env _).search.trans (congrArg Holdings.search announced_holdings)).trans
        hv.search
    rw [ht.search, onNominated_eq, ← hsearch]
    exact beginPathMtu_rises (hsearch ▸ hs)

theorem step_searchRises (hs : s.search.Consistent) :
    s.search.effective ≤ (s.step H env e).search.effective := by
  by_cases he : ∃ buf, e = .send buf
  · obtain ⟨buf, rfl⟩ := he
    exact (congrArg MtuSearch.effective (sendPosted_search)).symm.le
  · obtain ⟨u, hu, -, hp⟩ := step_passage fun buf hb => he ⟨buf, hb⟩
    rw [← hu.search]
    exact hp.rises (hu.search ▸ hs)

theorem run_searchSound (H : Hmac) (env : Env) (hs : s.search.Sound) (es : List Event) :
    (s.run H env es).search.Sound := by
  induction es generalizing s with
  | nil => exact hs
  | cons e es ih => exact ih (step_sound hs)

theorem run_searchRises (H : Hmac) (env : Env) (hs : s.search.Sound) (es : List Event) :
    s.search.effective ≤ (s.run H env es).search.effective := by
  induction es generalizing s with
  | nil => exact le_rfl
  | cons e es ih => exact (step_searchRises hs.consistent).trans (ih (step_sound hs))

/-! ### The datagrams of a frame -/

def datagrams (H : Hmac) (net : Inet) (txn : TransactionId) (s t : Session) : List Bytes :=
  (t.log.take (t.log.length - s.log.length)).flatMap (Effect.datagrams H net txn s.turn)

inductive Outlet
  | dropped
  | stream
  | direct
  | relayed (c : TurnClient)

def outlet (env : Env) (s : Session) : Outlet :=
  match s.turn.filter fun _ => s.usesRelay with
  | some c => if c.carrier.isStream then .stream else .relayed c
  | none =>
    if (s.nominatedRoute env).1 = 0 then .dropped
    else if transportIsTcp s.nominatedTransport then .stream
    else if s.hasCarrier then .direct
    else .dropped

def seqnoSize (s : Session) : ℕ :=
  if s.cfg.orderedDelivery && !transportIsTcp s.nominatedTransport then 4 else 0

theorem length_numberFrame (s : Session) (buf : Bytes) :
    (s.numberFrame buf).1.length = buf.length + s.seqnoSize := by
  unfold numberFrame seqnoSize
  split
  · simp only [length_append, length_be32]
    omega
  · rfl

theorem datagrams_emit (e : Effect) (hlog : t.log = e :: s.log) (txn : TransactionId) :
    datagrams H env.net txn s t = e.datagrams H env.net txn s.turn := by
  simp [datagrams, hlog]

theorem datagrams_none (hlog : t.log = s.log) (txn : TransactionId) :
    datagrams H env.net txn s t = [] := by
  simp [datagrams, hlog]

theorem nominatedRoute_carriers (env : Env) (s : Session) :
    (s.nominatedRoute env).2.log = s.log ∧ (s.nominatedRoute env).2.hasCarrier = s.hasCarrier ∧
      (s.nominatedRoute env).2.hasCarrierTcp = s.hasCarrierTcp := by
  unfold nominatedRoute ensureRemoteCid
  split
  · split
    · exact ⟨rfl, rfl, rfl⟩
    · split
      · exact ⟨rfl, rfl, rfl⟩
      · dsimp only
        split <;> exact ⟨rfl, rfl, rfl⟩
  · exact ⟨rfl, rfl, rfl⟩

private theorem nominatedRoute_numbered (env : Env) (s : Session) (n : ℕ) :
    (({ s with sendDataSeq := n } : Session).nominatedRoute env).1 = (s.nominatedRoute env).1 := by
  unfold nominatedRoute
  split
  · unfold ensureRemoteCid
    dsimp only
    split
    · rfl
    · split
      · rfl
      · by_cases hconn : env.connect .udp s.draws s.nominatedEp = 0
        · rw [if_pos hconn, if_pos hconn]
        · rw [if_neg hconn, if_neg hconn]
  · rfl

/-- One datagram at most leaves, with the sequence number and, over a relay, wrapped once more. -/
theorem sendOnStrand_datagrams {txn : TransactionId} {buf : Bytes} :
    datagrams H env.net txn s (s.sendOnStrand env buf) =
      match s.outlet env with
      | .dropped => []
      | .stream => []
      | .direct => [(s.numberFrame buf).1]
      | .relayed c => c.sendIndication H env.net txn s.nominatedEp (s.numberFrame buf).1 := by
  obtain ⟨n, hn⟩ := numberFrame_fields buf s
  obtain ⟨hlog, hcar, htcp⟩ := nominatedRoute_carriers env { s with sendDataSeq := n }
  have hcid := nominatedRoute_numbered env s n
  unfold sendOnStrand outlet
  dsimp only
  rw [hn]
  cases hturn : s.turn.filter fun _ => s.usesRelay with
  | some c =>
    obtain ⟨hc, hrelay⟩ := filter_eq_some_iff.mp hturn
    rw [if_pos (by simp [hc, hrelay])]
    rw [datagrams_emit (.relaySend s.nominatedEp (.raw (s.numberFrame buf).1)) rfl]
    simp only [Effect.datagrams, hc, Payload.bytes]
    split <;> rfl
  | none =>
    have hdirect : ¬ (s.usesRelay && s.turn.isSome) = true := by
      intro h
      obtain ⟨hrelay, hsome⟩ := Bool.and_eq_true_iff.mp h
      obtain ⟨c, hc⟩ := isSome_iff_exists.mp hsome
      simp [hc, hrelay] at hturn
    rw [if_neg hdirect, ← hcid]
    generalize ({ s with sendDataSeq := n } : Session).nominatedRoute env = r at hlog hcar htcp
    split
    · exact datagrams_none hlog txn
    · unfold carrierSend
      dsimp only
      split
      · split
        · exact datagrams_emit (.tcpSend r.1 (.raw (s.numberFrame buf).1)) (congrArg _ hlog) txn
        · exact datagrams_none hlog txn
      · rw [hcar]
        dsimp only
        split
        · exact datagrams_emit (.udpSend r.1 (.raw (s.numberFrame buf).1)) (congrArg _ hlog) txn
        · exact datagrams_none hlog txn

/-- The datagrams of a frame of `n` bytes fit the path MTU, with `overhead` bytes to spare. -/
def Carries (H : Hmac) (env : Env) (overhead n : ℕ) (s : Session) : Prop :=
  ∀ (txn : TransactionId) (frame : Bytes), frame.length = n →
    ∀ d ∈ datagrams H env.net txn s (s.sendOnStrand env frame),
      d.length + overhead ≤ lastAcked s.cfg.pathMtu s.mtuTrials

/-- A frame of `n` bytes leaves as a datagram only when nothing is added to it and nothing has to
be reserved: without ordered delivery, and not through a relay unless its server cannot be reached
or its framing refuses the size. -/
def Bare (env : Env) (overhead n : ℕ) (s : Session) : Prop :=
  match s.outlet env with
  | .dropped => True
  | .stream => True
  | .direct => s.cfg.orderedDelivery = false ∧ overhead = 0
  | .relayed c => c.serverCid = 0 ∨ c.streamFraming = true ∧
      0xFFFF < c.wrappedSize env.net s.nominatedEp (n + s.seqnoSize)

theorem seqnoSize_direct (h : s.outlet env = .direct) :
    s.seqnoSize = 0 ↔ s.cfg.orderedDelivery = false := by
  have hudp : transportIsTcp s.nominatedTransport = false := by
    unfold outlet at h
    split at h
    · split at h <;> cases h
    · split at h
      · cases h
      · split at h
        · cases h
        · rename_i htcp
          exact Bool.not_eq_true _ ▸ htcp
  simp [seqnoSize, hudp]

theorem Bare.carries (h : s.Bare env overhead n)
    (hn : n ≤ lastAcked s.cfg.pathMtu s.mtuTrials) : s.Carries H env overhead n := by
  intro txn frame hlen d hd
  rw [sendOnStrand_datagrams] at hd
  unfold Bare at h
  split at hd
  · cases hd
  · cases hd
  · rename_i hout
    rw [hout] at h
    have hseq := (seqnoSize_direct hout).mpr h.1
    have hsize := length_numberFrame s frame
    rw [mem_singleton.mp hd]
    omega
  · rename_i c hout
    rw [hout] at h
    have hnil : c.sendIndication H env.net txn s.nominatedEp (s.numberFrame frame).1 = [] := by
      rw [TurnClient.sendIndication_eq_nil, length_numberFrame, hlen]
      exact h
    rw [hnil] at hd
    cases hd

theorem Carries.bare (h : s.Carries H env overhead n)
    (hn : lastAcked s.cfg.pathMtu s.mtuTrials = n) : s.Bare env overhead n := by
  have hfits (txn : TransactionId) (frame : Bytes) (hlen : frame.length = n) := h txn frame hlen
  simp only [sendOnStrand_datagrams, hn] at hfits
  unfold Bare
  cases hout : s.outlet env with
  | dropped => exact trivial
  | stream => exact trivial
  | direct =>
    rw [hout] at hfits
    have hfit := hfits (env.txnId 0) (List.replicate n 0) (length_replicate ..) _
      mem_cons_self
    rw [length_numberFrame, length_replicate] at hfit
    exact ⟨(seqnoSize_direct hout).mp (by omega), by omega⟩
  | relayed c =>
    rw [hout] at hfits
    have hsize := length_numberFrame s (List.replicate n 0)
    rw [length_replicate] at hsize
    have hnil : c.sendIndication H env.net (env.txnId 0) s.nominatedEp
        (s.numberFrame (List.replicate n 0)).1 = [] := by
      refine eq_nil_iff_forall_not_mem.mpr fun d hd => ?_
      have hfit := hfits (env.txnId 0) _ (length_replicate ..) d hd
      have hgrown := TurnClient.sendIndication_grows hd
      omega
    rw [TurnClient.sendIndication_eq_nil, hsize] at hnil
    exact hnil

end Session

/-! ### The link -/

/-- How a session came about: the configuration calls of the link before it was made, and what
happened to it since. -/
structure Biography where
  calls : List ConfigCall
  wiring : Wiring
  controlling : Bool
  tiebreaker : ℕ
  events : List Event

def Biography.session (sdk : Sdk) (H : Hmac) (env : Env) (b : Biography) : Session :=
  (Session.create env ((Settings.run sdk b.calls).cfg.handed sdk) b.wiring b.controlling
    b.tiebreaker).run H env b.events

/-- The maps of the link, its configuration calls so far, and the sessions behind its ids. -/
structure SendingLink where
  link : Link
  calls : List ConfigCall
  biography : ConnId → Biography

inductive SendResult
  | ok | nullArg | payloadTooLarge | notFound
  deriving DecidableEq

namespace SendingLink

variable (sdk : Sdk) (H : Hmac) (env : Env) (conn : ConnId) (l : SendingLink)

def mtu : ℕ := (Settings.run sdk l.calls).mtu

/-- Both `send` and `effective_path_mtu` look an id up in the map of its kind. -/
def session? : Option Session :=
  if isComposerId conn then
    (l.link.composerSessions.lookup conn).map fun _ => (l.biography conn).session sdk H env
  else (l.link.sessions.lookup conn).map fun _ => (l.biography conn).session sdk H env

def effectivePathMtu : ℕ :=
  match l.session? sdk H env conn with
  | none => l.mtu sdk
  | some s => if s.effectiveMtu ≠ 0 then s.effectiveMtu else l.mtu sdk

/-- `IceLink::send`; the session runs the closure that its own `send` posts. -/
def send (bytes : Bytes) : SendResult × SendingLink :=
  if l.link.shutdown then (.nullArg, l)
  else if l.mtu sdk < bytes.length then (.payloadTooLarge, l)
  else
    match l.session? sdk H env conn with
    | none => (.notFound, l)
    | some _ =>
      let b := l.biography conn
      let after : Biography := { b with events := b.events ++ [.send bytes] }
      (.ok, { l with biography := Function.update l.biography conn after })

def overhead : ℕ := (Settings.run sdk (l.biography conn).calls).cfg.securityOverhead.toNat

/-- A frame of the advertised size is accepted, and fits the path MTU when it is sent at once. -/
def UsableMtu : Prop :=
  (∀ frame : Bytes, frame.length = l.effectivePathMtu sdk H env conn →
    (l.send sdk H env conn frame).1 = .ok) ∧
  ∀ s ∈ l.session? sdk H env conn, s.state = .connected →
    s.Carries H env (l.overhead sdk conn) (l.effectivePathMtu sdk H env conn)

/-- The link runs and has the session, its own limit is not below the size that the session found,
and a Connected session sends frames of that size as they are. -/
structure Roomy : Prop where
  running : l.link.shutdown = false
  known : (l.session? sdk H env conn).isSome = true
  limit : l.effectivePathMtu sdk H env conn ≤ l.mtu sdk
  bare : ∀ s ∈ l.session? sdk H env conn, s.state = .connected →
    s.Bare env (l.overhead sdk conn) (l.effectivePathMtu sdk H env conn)

/-- A frame of the size advertised now fits whenever it is sent: also in a later state, such as
that of the nomination a parked frame waits for, as soon as that state adds nothing to it. -/
def FitsLater : Prop :=
  ∀ s ∈ l.session? sdk H env conn, ∀ (es : List Event) (u : Session),
    u.search = (s.run H env es).search →
    u.Bare env (l.overhead sdk conn) (l.effectivePathMtu sdk H env conn) →
    u.Carries H env (l.overhead sdk conn) (l.effectivePathMtu sdk H env conn)

variable {sdk H env conn l} {s : Session}

theorem session_of_mem (h : l.session? sdk H env conn = some s) :
    s = (l.biography conn).session sdk H env := by
  unfold session? at h
  split at h
  · obtain ⟨_, -, hs⟩ := map_eq_some_iff.mp h
    exact hs.symm
  · obtain ⟨_, -, hs⟩ := map_eq_some_iff.mp h
    exact hs.symm

private theorem written_pathMtu_pos {c : ConfigCall} {m : ℕ} (h : c.pathMtu? = some m) : 0 < m := by
  obtain ⟨host, -, hmtu⟩ := bind_eq_some_iff.mp h
  obtain ⟨v, hv, rfl⟩ := map_eq_some_iff.mp hmtu
  have hvalid := (filter_eq_some_iff.mp hv).2
  simp only [HostConfig.validMtu, decide_eq_true_eq] at hvalid
  omega

private theorem pathMtu_pos (sdk : Sdk) (cs : List ConfigCall) :
    0 < (Settings.run sdk cs).cfg.pathMtu := by
  rw [(Settings.run_mtu).2]
  induction cs using List.reverseRecOn with
  | nil => decide
  | append_singleton cs c ih =>
    rw [lastWrite_concat]
    cases hw : c.pathMtu? with
    | none => exact ih
    | some m => exact written_pathMtu_pos hw

theorem session_sound (h : l.session? sdk H env conn = some s) :
    s.search.Sound ∧ 0 < s.effectiveMtu := by
  obtain rfl := session_of_mem h
  have hsound := Session.create_sound env
    ((Settings.run sdk (l.biography conn).calls).cfg.handed sdk)
    (l.biography conn).wiring (l.biography conn).controlling (l.biography conn).tiebreaker
  have hrise := Session.run_searchRises H env hsound (l.biography conn).events
  exact ⟨Session.run_searchSound H env hsound _, lt_of_lt_of_le (pathMtu_pos sdk _) hrise⟩

theorem effectivePathMtu_eq (h : l.session? sdk H env conn = some s) :
    l.effectivePathMtu sdk H env conn = lastAcked s.cfg.pathMtu s.mtuTrials := by
  obtain ⟨hsound, hpos⟩ := session_sound h
  have heff : s.effectiveMtu = lastAcked s.cfg.pathMtu s.mtuTrials := hsound.consistent.effective
  rw [effectivePathMtu, h]
  dsimp only
  rw [if_pos (by omega), heff]

theorem send_ok_iff {frame : Bytes} : (l.send sdk H env conn frame).1 = .ok ↔
    l.link.shutdown = false ∧ frame.length ≤ l.mtu sdk ∧
      (l.session? sdk H env conn).isSome = true := by
  unfold send
  split
  · simp_all
  · split
    · simp_all
    · cases l.session? sdk H env conn <;> simp_all

theorem usableMtu_iff : l.UsableMtu sdk H env conn ↔ l.Roomy sdk H env conn := by
  constructor
  · rintro ⟨haccept, hcarries⟩
    have hzeros := length_replicate (n := l.effectivePathMtu sdk H env conn) (a := (0 : UInt8))
    obtain ⟨hrun, hlimit, hknown⟩ := send_ok_iff.mp (haccept _ hzeros)
    refine ⟨hrun, hknown, hzeros ▸ hlimit, fun s hs hc => ?_⟩
    exact (hcarries s hs hc).bare (effectivePathMtu_eq hs).symm
  · intro h
    constructor
    · intro frame hlen
      exact send_ok_iff.mpr ⟨h.running, hlen ▸ h.limit, h.known⟩
    · intro s hs hc
      exact (h.bare s hs hc).carries (effectivePathMtu_eq hs).le

private theorem fitsLater : l.FitsLater sdk H env conn := by
  intro s hs es u hu hbare
  have hsound := (session_sound hs).1
  have hrise := Session.run_searchRises H env hsound es
  have hlater := (Session.run_searchSound H env hsound es).consistent.effective
  rw [← hu] at hrise hlater
  have hnow : l.effectivePathMtu sdk H env conn = s.search.effective :=
    (effectivePathMtu_eq hs).trans hsound.consistent.effective.symm
  exact hbare.carries (hnow.le.trans (hrise.trans hlater.le))

/-- The advertised path MTU is usable just when the link's limit leaves room for it and the session
sends frames as they are; a frame that has to wait fits later under the same condition. -/
theorem advertised_mtu_usable_iff (sdk : Sdk) (H : Hmac) (env : Env) (conn : ConnId)
    (l : SendingLink) : (l.UsableMtu sdk H env conn ↔ l.Roomy sdk H env conn) ∧
      l.FitsLater sdk H env conn :=
  ⟨usableMtu_iff, fitsLater⟩

def single (calls : List ConfigCall) (events : List Event) : SendingLink where
  link := { sessions := (∅ : AList fun _ : ConnId => Bytes).insert 1 [9] }
  calls := calls
  biography _ := ⟨calls, {}, true, 7, events⟩

private theorem single_session (sdk : Sdk) (H : Hmac) (env : Env) (calls : List ConfigCall)
    (events : List Event) :
    (single calls events).session? sdk H env 1 =
      some ((⟨calls, {}, true, 7, events⟩ : Biography).session sdk H env) := by
  have hkernel : isComposerId 1 = false := by decide
  have hfound : (single calls events).link.sessions.lookup 1 = some [9] := AList.lookup_insert _
  rw [session?, hkernel, hfound]
  rfl

/-- The peer acknowledges a probe of 1400 bytes. The link advertises that size and refuses every
frame that has it, since its own limit stays at the configured 1200. -/
theorem probed_size_is_refused : ¬ ∃ (H : Hmac) (frame : Bytes),
    frame.length =
      (single [] (Session.probedHost.map (·.toEvent H))).effectivePathMtu .refusing H .lan 1 ∧
    ((single [] (Session.probedHost.map (·.toEvent H))).send .refusing H .lan 1 frame).1 = .ok := by
  rintro ⟨H, frame, hlen, hok⟩
  have hplay : ((Session.create .lan ((Settings.run .refusing []).cfg.handed .refusing) {} true
      7).play .lan Session.probedHost).any (fun s => decide (s.effectiveMtu = 1400)) = true := by
    decide +kernel
  have hrun := Session.run_of_play_any hplay H
  generalize Session.probedHost.map (·.toEvent H) = events at hrun hlen hok
  have hsession := single_session .refusing H .lan [] events
  rw [Biography.session] at hsession
  dsimp only at hsession
  generalize (Session.create .lan ((Settings.run .refusing []).cfg.handed .refusing) {} true 7).run
    H .lan events = s at hrun hsession
  rw [decide_eq_true_eq] at hrun
  have heff : (single [] events).effectivePathMtu .refusing H .lan 1 = 1400 := by
    rw [effectivePathMtu, hsession]
    dsimp only
    rw [hrun]
    rfl
  have hmtu : (single [] events).mtu .refusing = 1200 := rfl
  have hfits := (send_ok_iff.mp hok).2.1
  omega

end SendingLink

end LinkIce
