import LinkIce.Session.OrderedDelivery
import LinkIce.Session.Script

/-! Which application payloads survive the demultiplexer that tells STUN from data, and
which bytes it hands to a TURN client. -/
namespace LinkIce
open Stun Option

/-- A header with the magic cookie, and a length field that the datagram covers. -/
def stunShaped (d : Bytes) : Prop :=
  20 ≤ d.length ∧ read32 (d.drop 4) = magicCookie ∧ 20 + read16 (d.drop 2) ≤ d.length

theorem parseStun_eq_none_iff {net : Inet} {d : Bytes} :
    parseStun net d = none ↔ ¬ stunShaped d := by
  unfold parseStun stunShaped
  dsimp only
  split_ifs with hlen hcookie hfit
  · simp only [true_iff]
    omega
  · simp [hcookie]
  · simp only [true_iff]
    omega
  · simp only [false_iff, not_not]
    exact ⟨by omega, not_not.mp hcookie, by omega⟩

namespace Session

variable {H : Hmac} {env : Env} {s t : Session}

theorem act_noData {l : Option Label} (h : Act env s l t) (hl : ∀ a ∈ l, a.delivers = false) :
    Logs (·.isData = false) s t := by
  refine (act_logs h).mono fun e he => ?_
  cases e with
  | onData =>
    obtain ⟨a, ha, hd⟩ := he
    rw [hl a ha] at hd
    cases hd
  | _ => rfl

theorem steps_noData {A : Set Label} (h : Steps env A s t) (hA : ∀ a ∈ A, a.delivers = false) :
    Logs (·.isData = false) s t :=
  h.invariant (I := Logs (·.isData = false) s)
    (fun hl hact hu => hu.trans (act_noData hact fun a ha => hA a (hl a ha))) (.refl s)

def received (s : Session) : List Bytes :=
  s.log.filterMap fun
    | .onData d => some d
    | _ => none

theorem received_of_noData (h : Logs (·.isData = false) s t) : t.received = s.received := by
  obtain ⟨new, hn, hd⟩ := h
  rw [received, hn, List.filterMap_append, List.filterMap_eq_nil_iff.mpr]
  · rfl
  · intro e he
    cases e with
    | onData d => exact absurd (hd _ he) (by simp [Effect.isData])
    | _ => rfl

def isPeerCid (cid : Cid) (s : Session) : Bool :=
  !isTurnServer s.turn cid && !isTurnServer s.turnBackupProbe cid

/-- A datagram of the peer that arrives through the relay: the data callback, and the dispatch
of what it takes for STUN. -/
def receiveRelayed (H : Hmac) (env : Env) (c : TurnClient) (peer : Endpoint) (d : Bytes)
    (s : Session) : Session :=
  let s := s.turnOutput env c (.data peer d)
  if looksLikeStun d then s.step H env (.task (.relayStun peer d)) else s

/-- The receiver has the sender's setting and waits for the sender's next number. -/
structure InSync (a b : Session) : Prop where
  ordered : b.cfg.orderedDelivery = a.cfg.orderedDelivery
  due : a.cfg.orderedDelivery = true → b.recvDataSeq = a.sendDataSeq
  settled : a.cfg.orderedDelivery = true → b.recvReorderBuf = []
  seq : a.sendDataSeq < 2 ^ 32

/-- What receiving application bytes reads. -/
structure SameReceiver (s t : Session) : Prop where
  state : t.state = s.state
  cfg : t.cfg = s.cfg
  seq : t.recvDataSeq = s.recvDataSeq
  buf : t.recvReorderBuf = s.recvReorderBuf
  log : t.log = s.log

theorem relayCidForEndpoint_posted {ep : Endpoint} {k : Task} :
    let r := ((s.post k).dequeue k).relayCidForEndpoint ep
    r.1 = (s.relayCidForEndpoint ep).1 ∧ r.2.turn = s.turn ∧
      r.2.turnBackupProbe = s.turnBackupProbe ∧ SameReceiver s r.2 := by
  unfold relayCidForEndpoint
  have hmap : ((s.post k).dequeue k).relayEndpointToCid = s.relayEndpointToCid := rfl
  rw [hmap]
  cases s.relayEndpointToCid.lookup ep with
  | none => exact ⟨rfl, rfl, rfl, rfl, rfl, rfl, rfl, rfl⟩
  | some cid => exact ⟨rfl, rfl, rfl, rfl, rfl, rfl, rfl, rfl⟩

section payloads

variable {a b : Session} {payload : Bytes} {cid : Cid}

theorem deliver_frame (payload : Bytes) (hs : InSync a b)
    (hu : transportIsTcp a.nominatedTransport = false) :
    (b.deliver (a.numberFrame payload).1).received = payload :: b.received := by
  unfold deliver numberFrame
  rw [hs.ordered, hu]
  cases ho : a.cfg.orderedDelivery with
  | false => rfl
  | true =>
    have hdue := deliverInOrder_due (hs.settled ho)
      (by rw [hs.due ho, Nat.mod_eq_of_lt hs.seq]) payload
    simp only [Bool.not_false, Bool.and_self, if_true, hdue]
    rfl

theorem onAppData_frame (hs : InSync a b) (hu : transportIsTcp a.nominatedTransport = false)
    (hc : b.state = .connected) (hsame : SameReceiver b t) :
    (t.onAppData false (a.numberFrame payload).1).received = payload :: b.received := by
  have ht : InSync a t := ⟨by rw [hsame.cfg, hs.ordered], fun ho => by rw [hsame.seq, hs.due ho],
    fun ho => by rw [hsame.buf, hs.settled ho], hs.seq⟩
  have hrec : t.received = b.received := by rw [received, hsame.log, received]
  have hdel := deliver_frame payload ht hu
  unfold onAppData
  rw [if_neg (by simp [hsame.state, hc]), ← hrec]
  simpa [deliver] using hdel

/-- On the direct path, data is what does not parse as STUN. -/
theorem onCarrierData_received (hs : InSync a b)
    (hu : transportIsTcp a.nominatedTransport = false) (hc : b.state = .connected)
    (hcid : b.isPeerCid cid = true) :
    (b.onCarrierData H env cid false (a.numberFrame payload).1).received = payload :: b.received ↔
      ¬ stunShaped (a.numberFrame payload).1 := by
  simp only [isPeerCid, Bool.and_eq_true, Bool.not_eq_true'] at hcid
  constructor
  · -- a STUN message is never handed on
    intro hrec hstun
    have hfor : (⟨b, cid, false, (a.numberFrame payload).1⟩ : Delivery).isForeign env = false := by
      have hsome : parseStun env.net (a.numberFrame payload).1 ≠ none :=
        fun h => parseStun_eq_none_iff.mp h hstun
      simp [Delivery.isForeign, Delivery.isTurn, hcid, isNone_eq_false_iff,
        isSome_iff_ne_none, hsome]
    have hsteps : Steps env
        ((⟨b, cid, false, (a.numberFrame payload).1⟩ : Delivery).allowed H env) b
        (b.onCarrierData H env cid false (a.numberFrame payload).1) := onCarrierData_steps _
    have hnone := steps_noData hsteps ?_
    · rw [received_of_noData hnone] at hrec
      exact absurd (congrArg List.length hrec) (by simp)
    · intro l hl
      cases l with
      | deliver =>
        rcases hl with ⟨-, h, -⟩ | ⟨m, -, h⟩ | ⟨m, -, h⟩
        · rw [hfor] at h
          cases h
        · exact h.elim
        · exact h.elim
      | _ => rfl
  · intro hdata
    unfold onCarrierData
    rw [if_neg (by simp [hcid]), if_neg (by simp [hcid]), parseStun_eq_none_iff.mpr hdata]
    exact onAppData_frame hs hu hc ⟨rfl, rfl, rfl, rfl, rfl⟩

theorem receiveRelayed_received {c : TurnClient} {peer : Endpoint} (hs : InSync a b)
    (hu : transportIsTcp a.nominatedTransport = false) (hc : b.state = .connected)
    (hprimary : c.backup = false)
    (hcid : b.isPeerCid (b.relayCidForEndpoint peer).1 = true)
    (hdata : ¬ stunShaped (a.numberFrame payload).1) :
    (b.receiveRelayed H env c peer (a.numberFrame payload).1).received = payload :: b.received := by
  unfold receiveRelayed
  simp only [turnOutput, hprimary]
  cases hlook : looksLikeStun (a.numberFrame payload).1 with
  | false => exact deliver_frame payload hs hu
  | true =>
    obtain ⟨hid, hturn, hprobe, hsame⟩ := relayCidForEndpoint_posted
    simp only [isPeerCid, Bool.and_eq_true, Bool.not_eq_true'] at hcid
    simp only [if_true, Bool.false_eq_true, if_false]
    rw [step, if_pos (by simp [post]), runTask, onRelayStun, onCarrierData, hid, hturn, hprobe,
      if_neg (by simp [hcid]), if_neg (by simp [hcid]), parseStun_eq_none_iff.mpr hdata]
    exact onAppData_frame hs hu hc hsame

/-- The datagram of a payload reaches `on_data` of the peer once, with the payload, both directly
and through the relay. -/
def Survives (H : Hmac) (env : Env) (cid : Cid) (c : TurnClient) (peer : Endpoint) (a b : Session)
    (payload : Bytes) : Prop :=
  (b.onCarrierData H env cid false (a.numberFrame payload).1).received = payload :: b.received ∧
    (b.receiveRelayed H env c peer (a.numberFrame payload).1).received = payload :: b.received

/-- A payload survives if and only if its datagram is not shaped like STUN. -/
theorem survives_iff (H : Hmac) (env : Env) {c : TurnClient} {peer : Endpoint} (hs : InSync a b)
    (hu : transportIsTcp a.nominatedTransport = false) (hc : b.state = .connected)
    (hprimary : c.backup = false) (hcid : b.isPeerCid cid = true)
    (hrelay : b.isPeerCid (b.relayCidForEndpoint peer).1 = true) (payload : Bytes) :
    Survives H env cid c peer a b payload ↔ ¬ stunShaped (a.numberFrame payload).1 := by
  constructor
  · intro h
    exact (onCarrierData_received hs hu hc hcid).mp h.1
  · intro h
    exact ⟨(onCarrierData_received hs hu hc hcid).mpr h,
      receiveRelayed_received hs hu hc hprimary hrelay h⟩

def connectedLan : Session := { create .lan {} {} true 7 with state := .connected }

def lanTurn : TurnClient := { carrier := .udp, serverCid := 9, cfg := {}, backup := false }

theorem connectedLan_inSync : InSync connectedLan connectedLan :=
  ⟨rfl, fun h => Bool.noConfusion h, fun h => Bool.noConfusion h, by decide⟩

theorem short_payload_survives :
    Survives zeroHmac .lan 7 lanTurn ⟨[10], 1⟩ connectedLan connectedLan
      [1, 2, 3] := by
  refine (survives_iff _ _ connectedLan_inSync rfl rfl rfl (by decide +kernel)
    (by decide +kernel) _).mpr ?_
  rintro ⟨h, -⟩
  exact absurd h (by decide)

/-- Twenty bytes with the magic cookie in the place where STUN has it. -/
def cookiePayload : Bytes := [0x80, 0, 0, 0] ++ be32 magicCookie ++ List.replicate 12 0

/-- The direct path takes the payload for a STUN message and drops it. -/
theorem cookie_payload_lost :
    ¬ ∃ H : Hmac, Survives H .lan 7 lanTurn ⟨[10], 1⟩ connectedLan connectedLan cookiePayload := by
  rintro ⟨H, h, -⟩
  have hcid : connectedLan.isPeerCid 7 = true := by decide +kernel
  have hshape : stunShaped (connectedLan.numberFrame cookiePayload).1 :=
    ⟨by decide +kernel, by decide +kernel, by decide +kernel⟩
  exact (onCarrierData_received connectedLan_inSync rfl rfl hcid).mp h hshape

end payloads

/-! ### Traffic of the TURN server -/

/-- Who gets the bytes: a TURN client, or the code that serves the peer on a carrier. -/
inductive Consumer
  | turn
  | turnBackupProbe
  | peer (via : CarrierKind)
  deriving DecidableEq, Repr

def arrival (fromTcp : Bool) : CarrierKind := if fromTcp then .tcp else .udp

def onPeerData (H : Hmac) (env : Env) (cid : Cid) (fromTcp : Bool) (data : Bytes) (s : Session) :
    Session :=
  match parseStun env.net data with
  | none => s.onAppData fromTcp data
  | some m =>
    if s.isGatherResponse m then s.handleGatherResponse env m (s.sourceTransport fromTcp cid)
    else if s.authenticated H m data then s.onStun env m cid fromTcp
    else s

def handOver (H : Hmac) (env : Env) (cid : Cid) (data : Bytes) (s : Session) : Consumer → Session
  | .turn => s.turnOnInbound env data
  | .turnBackupProbe => s.turnBackupOnInbound env data
  | .peer via => s.onPeerData H env cid (via = .tcp) data

def consumer (cid : Cid) (fromTcp : Bool) (s : Session) : Consumer :=
  if isTurnServer s.turn cid then .turn
  else if isTurnServer s.turnBackupProbe cid then .turnBackupProbe
  else .peer (arrival fromTcp)

def onServerLink (c : Option TurnClient) (via : CarrierKind) (cid : Cid) : Bool :=
  c.any fun c => c.carrier == via && c.serverCid != 0 && cid == c.serverCid

def owner (cid : Cid) (via : CarrierKind) (s : Session) : Consumer :=
  if onServerLink s.turn via cid then .turn
  else if onServerLink s.turnBackupProbe via cid then .turnBackupProbe
  else .peer via

def usesCarrier (c : Option TurnClient) (via : CarrierKind) : Bool := c.all (·.carrier == via)

/-- No client that is asked for the id talks to its server over another carrier. -/
def noForeignClient (cid : Cid) (via : CarrierKind) (s : Session) : Prop :=
  (isTurnServer s.turn cid = true → usesCarrier s.turn via = true) ∧
    (isTurnServer s.turn cid = false → isTurnServer s.turnBackupProbe cid = true →
      usesCarrier s.turnBackupProbe via = true)

private theorem onServerLink_eq {o : Option TurnClient} {via : CarrierKind} {cid : Cid} :
    onServerLink o via cid = (isTurnServer o cid && usesCarrier o via) := by
  cases o with
  | none => rfl
  | some c => simp only [onServerLink, isTurnServer, usesCarrier, any_some, all_some,
      Bool.and_assoc, Bool.and_comm (c.carrier == via)]

/-- `on_carrier_data` hands the bytes to its consumer, and that is the one they are for if
and only if the id is not, by coincidence, that of a client on another carrier. -/
theorem consumer_eq_owner_iff (H : Hmac) (env : Env) (cid : Cid) (fromTcp : Bool) (data : Bytes)
    (s : Session) :
    s.onCarrierData H env cid fromTcp data = s.handOver H env cid data (s.consumer cid fromTcp) ∧
      (s.consumer cid fromTcp = s.owner cid (arrival fromTcp) ↔
        s.noForeignClient cid (arrival fromTcp)) := by
  constructor
  · unfold onCarrierData consumer
    split_ifs
    · rfl
    · rfl
    · cases fromTcp <;> rfl
  · unfold consumer owner noForeignClient
    rw [onServerLink_eq, onServerLink_eq]
    cases isTurnServer s.turn cid with
    | true =>
      cases usesCarrier s.turn (arrival fromTcp) <;>
        cases isTurnServer s.turnBackupProbe cid <;>
        cases usesCarrier s.turnBackupProbe (arrival fromTcp) <;> simp
    | false =>
      cases isTurnServer s.turnBackupProbe cid <;>
        cases usesCarrier s.turnBackupProbe (arrival fromTcp) <;> simp

def firstIds : Env := { Env.lan with connect := fun _ _ _ => 1 }

/-- The TURN client talks TCP; the check of the peer opens the first UDP connection. -/
def turnOverTcp : Session :=
  (create firstIds { turnServers := [{ server := Inet.dotted 192 0 2 1, tcpTransport := true }] }
    { carrierTcp := true } true 7).run zeroHmac firstIds
    [.gather, .addRemoteCandidates [1] [2] [peerHost] false]

/-- What the peer sends over UDP goes to the TURN client on TCP. -/
theorem peer_bytes_taken_by_turn :
    (turnOverTcp.cidToEndpointUdp.lookup 1).isSome = true ∧
      turnOverTcp.consumer 1 false = .turn ∧ turnOverTcp.owner 1 (arrival false) = .peer .udp := by
  decide +kernel

end Session

end LinkIce
