import LinkIce.Session.RelayLinks
import LinkIce.Turn.Streams

/-! TURN clients as the session builds and replaces them: the carrier of a client against
its framing, and what a promoted backup does with the data it receives. -/
namespace LinkIce
open Stun

def CarrierKind.isStream : CarrierKind → Bool
  | .udp => false
  | .tcp | .tls => true

namespace TurnClient

variable {c : TurnClient}

/-- Both directions use the length prefix. -/
structure AppliesFraming (c : TurnClient) : Prop where
  sends : ∀ bytes, c.sendToServer bytes = (encodeStreamFrame bytes).toList
  reads : ∀ net md5 txn bytes, c.onInbound net md5 txn bytes =
    drainFrames net md5 txn (c.rxBuffer ++ bytes).length { c with rxBuffer := c.rxBuffer ++ bytes }

structure AppliesNoFraming (c : TurnClient) : Prop where
  sends : ∀ bytes, c.sendToServer bytes = [bytes]
  reads : ∀ net md5 txn bytes, c.onInbound net md5 txn bytes =
    dispatchInboundMessage net md5 c (txn 0) bytes

/-- A byte stream is framed, datagrams are not. -/
def FramingMatchesCarrier (c : TurnClient) : Prop :=
  if c.carrier.isStream then c.AppliesFraming else c.AppliesNoFraming

theorem appliesFraming_iff (h : c.serverCid ≠ 0) : c.AppliesFraming ↔ c.streamFraming = true := by
  constructor
  · intro hf
    by_contra hs
    -- the empty message tells the two apart
    have hempty := hf.sends []
    rw [sendToServer, if_neg h, if_neg hs] at hempty
    cases hempty
  · intro hs
    exact ⟨fun bytes => by rw [sendToServer, if_neg h, if_pos hs],
      fun net md5 txn bytes => by rw [onInbound, if_pos hs]⟩

theorem appliesNoFraming_iff (h : c.serverCid ≠ 0) :
    c.AppliesNoFraming ↔ c.streamFraming = false := by
  constructor
  · intro hf
    by_contra hs
    have hempty := hf.sends []
    rw [Bool.not_eq_false] at hs
    rw [sendToServer, if_neg h, if_pos hs] at hempty
    cases hempty
  · intro hs
    have hs' : ¬ c.streamFraming = true := by simp [hs]
    exact ⟨fun bytes => by rw [sendToServer, if_neg h, if_neg hs'],
      fun net md5 txn bytes => by rw [onInbound, if_neg hs']⟩

theorem framingMatchesCarrier_iff (h : c.serverCid ≠ 0) :
    c.FramingMatchesCarrier ↔ c.streamFraming = c.carrier.isStream := by
  unfold FramingMatchesCarrier
  cases c.carrier.isStream with
  | true => rw [if_pos rfl, appliesFraming_iff h]
  | false => rw [if_neg Bool.false_ne_true, appliesNoFraming_iff h]

end TurnClient

namespace Session

variable {H : Hmac} {env : Env} {s t : Session} {c : TurnClient} {cfg : TurnConfig}
  {raw payload : Bytes}

/-! ### The carrier that `build_turn_client` picks -/

/-- TLS before TCP before UDP, each only if its carrier is there. -/
def turnCarrier (cfg : TurnConfig) (s : Session) : CarrierKind :=
  if cfg.tlsTransport && s.hasCarrierTls then .tls
  else if cfg.tcpTransport && s.hasCarrierTcp then .tcp
  else .udp

theorem buildTurnClient_some {backup : Bool} (h : (s.buildTurnClient env cfg backup).1 = some c) :
    c.serverCid ≠ 0 ∧ c.cfg = cfg ∧ c.backup = backup ∧ c.carrier = s.turnCarrier cfg := by
  have hbuilt (kind : CarrierKind) (cid : Cid) (hc : (if cid = 0 then none else
      some ({ carrier := kind, serverCid := cid, cfg, backup } : TurnClient)) = some c) :
      c.serverCid ≠ 0 ∧ c.cfg = cfg ∧ c.backup = backup ∧ c.carrier = kind := by
    by_cases hz : cid = 0
    · rw [if_pos hz] at hc
      cases hc
    · rw [if_neg hz] at hc
      cases hc
      exact ⟨hz, rfl, rfl, rfl⟩
  unfold buildTurnClient at h
  unfold turnCarrier
  by_cases htls : (cfg.tlsTransport && s.hasCarrierTls) = true
  · rw [if_pos htls] at h ⊢
    exact hbuilt _ _ h
  · rw [if_neg htls] at h ⊢
    by_cases htcp : (cfg.tcpTransport && s.hasCarrierTcp) = true
    · rw [if_pos htcp] at h ⊢
      exact hbuilt _ _ h
    · rw [if_neg htcp] at h ⊢
      exact hbuilt _ _ h

private theorem turnCarrier_isStream : (s.turnCarrier cfg).isStream =
    (cfg.tlsTransport && s.hasCarrierTls || cfg.tcpTransport && s.hasCarrierTcp) := by
  unfold turnCarrier
  by_cases htls : (cfg.tlsTransport && s.hasCarrierTls) = true
  · rw [if_pos htls, htls]
    rfl
  · rw [if_neg htls, Bool.eq_false_iff.mpr htls, Bool.false_or]
    by_cases htcp : (cfg.tcpTransport && s.hasCarrierTcp) = true
    · rw [if_pos htcp, htcp]
      rfl
    · rw [if_neg htcp, Bool.eq_false_iff.mpr htcp]
      rfl

/-- The framing of a client that was built, for a primary or a backup server, fits its carrier
if and only if no stream transport is configured, or the carrier of a configured one is there.
The fallback to UDP keeps the framing. -/
theorem turn_framing_matches_iff (env : Env) (cfg : TurnConfig) (backup : Bool) (s : Session)
    (c : TurnClient) (h : (s.buildTurnClient env cfg backup).1 = some c) :
    c.FramingMatchesCarrier ↔
      (cfg.tcpTransport = true ∨ cfg.tlsTransport = true →
        cfg.tcpTransport = true ∧ s.hasCarrierTcp = true ∨
          cfg.tlsTransport = true ∧ s.hasCarrierTls = true) := by
  obtain ⟨hcid, hcfg, -, hcarrier⟩ := buildTurnClient_some h
  rw [c.framingMatchesCarrier_iff hcid, hcarrier, turnCarrier_isStream, TurnClient.streamFraming,
    hcfg]
  cases cfg.tcpTransport <;> cases cfg.tlsTransport <;> cases s.hasCarrierTcp <;>
    cases s.hasCarrierTls <;> decide

/-- A TURN server reached over TLS. -/
theorem tls_relay_is_framed : ∃ c : TurnClient,
    (buildTurnClient .lan { server := Inet.dotted 192 0 2 1, tlsTransport := true } false
      (create .lan {} { carrierTls := true } true 7)).1 = some c ∧ c.FramingMatchesCarrier := by
  have hsome : (buildTurnClient .lan { server := Inet.dotted 192 0 2 1, tlsTransport := true } false
      (create .lan {} { carrierTls := true } true 7)).1.isSome = true := by decide
  obtain ⟨c, hc⟩ := Option.isSome_iff_exists.mp hsome
  exact ⟨c, hc, (turn_framing_matches_iff .lan _ false _ c hc).mpr fun _ => .inr ⟨rfl, rfl⟩⟩

/-- TCP is configured, but there is only a UDP carrier: its datagrams get a length prefix. -/
theorem udp_fallback_is_framed : ∃ c : TurnClient,
    (buildTurnClient .lan { server := Inet.dotted 192 0 2 1, tcpTransport := true } false
      (create .lan {} {} true 7)).1 = some c ∧ c.carrier = .udp ∧ ¬ c.FramingMatchesCarrier := by
  have hsome : (buildTurnClient .lan { server := Inet.dotted 192 0 2 1, tcpTransport := true } false
      (create .lan {} {} true 7)).1.isSome = true := by decide
  obtain ⟨c, hc⟩ := Option.isSome_iff_exists.mp hsome
  obtain ⟨hcid, hcfg, -, hcarrier⟩ := buildTurnClient_some hc
  refine ⟨c, hc, hcarrier, ?_⟩
  rw [c.framingMatchesCarrier_iff hcid, hcarrier, TurnClient.streamFraming, hcfg]
  decide

/-! ### Data on a promoted backup -/

/-- The data callback of `try_next_turn_attempt`. -/
def onRelayData (peer : Endpoint) (payload : Bytes) (s : Session) : Session :=
  if looksLikeStun payload then s.post (.relayStun peer payload) else s.deliver payload

/-- The session as the data callback finds it when the client has read `bytes`. -/
def atDataCallback (env : Env) (c : TurnClient) (bytes : Bytes) (s : Session) : Session :=
  { s with
    turn := some (c.onInbound env.net env.md5 (fun k => env.txnId (s.draws + k)) bytes).1
    draws := s.draws + (c.rxBuffer ++ bytes).length + 1 }

/-- Ordered delivery drops the frame: it has no number, an old one, or the number of a frame that
waits with the same bytes. -/
def discards (raw : Bytes) (s : Session) : Prop :=
  s.cfg.orderedDelivery = true ∧
    (raw.length < 4 ∨ read32 raw < s.recvDataSeq ∨
      s.recvDataSeq < read32 raw ∧
        reorderInsert (read32 raw) (raw.drop 4) s.recvReorderBuf = s.recvReorderBuf ∧
        (reorderWindow ≤ s.recvReorderBuf.length →
          (s.recvReorderBuf.headD (s.recvDataSeq, [])).1 = s.recvDataSeq))

private theorem drainReorder_log (fuel : ℕ) (t : Session) :
    t.log.length ≤ (drainReorder fuel t).log.length := by
  have hkeeps : Delivers t (drainReorder fuel t) := drainReorder_delivers t
  obtain ⟨new, hlog, -⟩ := hkeeps.log
  rw [hlog, List.length_append]
  exact Nat.le_add_left _ _

private theorem deliverInOrder_next_ne (hl : ¬ raw.length < 4)
    (hseq : read32 raw = s.recvDataSeq) : s.deliverInOrder raw ≠ s := by
  intro h
  rw [deliverInOrder, if_neg hl] at h
  dsimp only at h
  rw [if_neg hseq.not_lt, if_pos hseq] at h
  have hgrows := drainReorder_log s.recvReorderBuf.length (({ s with
    recvDataSeq := (s.recvDataSeq + 1) % 2 ^ 32 } : Session).emit (.onData (raw.drop 4)))
  rw [h] at hgrows
  exact absurd hgrows (Nat.not_succ_le_self _)

theorem deliver_eq_self_iff : s.deliver raw = s ↔ s.discards raw := by
  unfold deliver discards
  cases s.cfg.orderedDelivery with
  | false =>
    have hgrows : s.emit (.onData raw) ≠ s := fun h => by
      simpa [emit] using congrArg (·.log.length) h
    simp [hgrows]
  | true =>
    rw [if_pos rfl, eq_self, true_and]
    by_cases hl : raw.length < 4
    · simp [deliverInOrder, hl]
    rcases lt_trichotomy (read32 raw) s.recvDataSeq with hseq | hseq | hseq
    · simp [deliverInOrder, hl, hseq]
    · simp [deliverInOrder_next_ne hl hseq, hl, hseq]
    · rw [deliverInOrder, if_neg hl]
      dsimp only
      rw [if_neg hseq.not_gt, if_neg hseq.ne']
      simp only [hl, hseq, hseq.not_gt, true_and, false_or]
      constructor
      · intro h
        have hnext := congrArg Session.recvDataSeq h
        refine ⟨congrArg Session.recvReorderBuf h, fun hfull => ?_⟩
        rwa [if_pos hfull] at hnext
      · rintro ⟨hbuf, hnext⟩
        have hsame : (if reorderWindow ≤ s.recvReorderBuf.length
            then (s.recvReorderBuf.headD (s.recvDataSeq, [])).1 else s.recvDataSeq) =
            s.recvDataSeq := ite_eq_right_iff.mpr hnext
        rw [hsame, hbuf]

theorem onRelayData_eq_self_iff {peer : Endpoint} :
    s.onRelayData peer payload = s ↔ looksLikeStun payload = false ∧ s.discards payload := by
  rw [← deliver_eq_self_iff]
  unfold onRelayData
  by_cases hstun : looksLikeStun payload = true
  · have hgrows : s.post (.relayStun peer payload) ≠ s := by
      intro h
      have hlen := congrArg (·.queue.length) h
      simp [post] at hlen
    simp [hstun, hgrows]
  · simp [hstun]

/-- A client that replaced a failed relay was built by `on_turn_backup_tick` and keeps that
callback: of a datagram it receives, nothing reaches the session. This is what the original
relay would do only with application bytes that the delivery discards anyway. -/
theorem promoted_relay_receives_iff (H : Hmac) (env : Env) (cfg : IceConfig) (w : Wiring)
    (controlling : Bool) (tiebreaker : ℕ) (es : List Event) (c : TurnClient) (bytes : Bytes)
    (peer : Endpoint) (payload : Bytes)
    (hturn : ((create env cfg w controlling tiebreaker).run H env es).turn = some c)
    (hbackup : c.backup = true)
    (hdata : (c.onInbound env.net env.md5 (fun k => env.txnId
      (((create env cfg w controlling tiebreaker).run H env es).draws + k)) bytes).2 =
        [.data peer payload]) :
    let s := (create env cfg w controlling tiebreaker).run H env es
    let u := s.atDataCallback env c bytes
    s.turnOnInbound env bytes = u.onRelayData peer payload ↔
      looksLikeStun payload = false ∧ s.discards payload := by
  intro s u
  have hkept : (c.onInbound env.net env.md5 (fun k => env.txnId (s.draws + k)) bytes).1.backup =
      true := TurnClient.onInbound_fixed.2.1.trans hbackup
  have hdropped : s.turnOnInbound env bytes = u := by
    have hin : s.turnOnInbound env bytes = u.turnOutputs env
        (c.onInbound env.net env.md5 (fun k => env.txnId (s.draws + k)) bytes).1
        (c.onInbound env.net env.md5 (fun k => env.txnId (s.draws + k)) bytes).2 := by
      unfold turnOnInbound
      rw [hturn]
      rfl
    rw [hin, hdata]
    exact if_pos hkept
  rw [hdropped, eq_comm]
  exact onRelayData_eq_self_iff

def backupServer : TurnConfig := { server := Inet.dotted 192 0 2 2, tcpTransport := true }

def twoRelays (ordered : Bool) : Session :=
  create .lan
    { turnServers := [{ server := Inet.dotted 192 0 2 1, tcpTransport := true }, backupServer]
      candidateFilter := { relayOnly := true }
      orderedDelivery := ordered }
    { carrierTcp := true } true 7

/-- The second gathering has lost the first relay and not yet got it back when the probe of
the backup server is answered. -/
def failover : List Event :=
  [.gather, .turnStream false (serverFrame allocateResponse),
    .task (.turnAllocated (relayCandidate Env.lan.net ⟨Inet.dotted 192 0 2 1, 49152⟩)),
    .gather, .task (.turnBackupTick 1), .turnStream true (serverFrame allocateResponse),
    .task (.backupAllocated backupServer)]

def relayedBytes (payload : Bytes) : Bytes :=
  let b : StunBuilder := ⟨turnDataIndication, Env.lan.txnId 8, []⟩
  serverFrame ((b.addXorPeerAddress Env.lan.net (Inet.dotted 10 0 0 2) 6000).add
    (.tlv .data payload))

def failedOver (ordered : Bool) : Session :=
  (twoRelays ordered).run zeroHmac .lan failover

/-- The client in use came from the probe, and reads the payload out of the datagram. -/
def probeReads (ordered : Bool) (payload : Bytes) : Bool :=
  (failedOver ordered).turn.any fun c => c.backup &&
    decide ((c.onInbound Env.lan.net Env.lan.md5
      (fun k => Env.lan.txnId ((failedOver ordered).draws + k)) (relayedBytes payload)).2 =
        [.data ⟨Inet.dotted 10 0 0 2, 6000⟩ payload])

theorem exists_promoted {ordered : Bool}
    (h : probeReads ordered payload = true) : ∃ c : TurnClient,
    (failedOver ordered).turn = some c ∧ c.backup = true ∧
      (c.onInbound Env.lan.net Env.lan.md5
        (fun k => Env.lan.txnId ((failedOver ordered).draws + k)) (relayedBytes payload)).2 =
          [.data ⟨Inet.dotted 10 0 0 2, 6000⟩ payload] := by
  obtain ⟨c, hc, hboth⟩ := (Option.any_eq_true _ _).mp h
  obtain ⟨hbackup, hdata⟩ := (Bool.and_eq_true _ _).mp hboth
  exact ⟨c, hc, hbackup, of_decide_eq_true hdata⟩

/-- A frame without a number is discarded on the promoted relay as on the original one. -/
theorem promoted_relay_discards : ∃ c : TurnClient, (failedOver true).turn = some c ∧
    c.backup = true ∧ (failedOver true).turnOnInbound .lan (relayedBytes [1]) =
      ((failedOver true).atDataCallback .lan c (relayedBytes [1])).onRelayData
        ⟨Inet.dotted 10 0 0 2, 6000⟩ [1] := by
  obtain ⟨c, hc, hbackup, hdata⟩ := exists_promoted (show probeReads true [1] = true by
    decide +kernel)
  have hord : (failedOver true).cfg.orderedDelivery = true := by decide +kernel
  exact ⟨c, hc, hbackup, (promoted_relay_receives_iff _ .lan _ _ true 7 failover c _ _ [1] hc
    hbackup hdata).mpr ⟨by decide, hord, .inl (by decide)⟩⟩

/-- The peer's check reaches the promoted client and is dropped. -/
theorem promoted_relay_drops_check : ∃ c : TurnClient, (failedOver false).turn = some c ∧
    c.backup = true ∧ (c.onInbound Env.lan.net Env.lan.md5
      (fun k => Env.lan.txnId ((failedOver false).draws + k)) (relayedBytes relayedRequest)).2 =
        [.data ⟨Inet.dotted 10 0 0 2, 6000⟩ relayedRequest] ∧
    (failedOver false).turnOnInbound .lan (relayedBytes relayedRequest) ≠
      ((failedOver false).atDataCallback .lan c (relayedBytes relayedRequest)).onRelayData
        ⟨Inet.dotted 10 0 0 2, 6000⟩ relayedRequest := by
  obtain ⟨c, hc, hbackup, hdata⟩ := exists_promoted
    (show probeReads false relayedRequest = true by decide +kernel)
  have hqueue : ((failedOver false).turnOnInbound .lan (relayedBytes relayedRequest)).queue =
      (failedOver false).queue := by
    decide +kernel
  have hstun : looksLikeStun relayedRequest = true := by decide +kernel
  generalize failedOver false = s at hc hdata hqueue ⊢
  refine ⟨c, hc, hbackup, hdata, fun h => ?_⟩
  rw [h, onRelayData, if_pos hstun] at hqueue
  have hlen := congrArg List.length hqueue
  simp [post, atDataCallback] at hlen

end Session

end LinkIce
