import LinkIce.Session.State

/-! Connection ids, TURN output and application data. -/
namespace LinkIce
open Stun

namespace Session

def ensureRemoteCid (env : Env) (ep : Endpoint) (s : Session) : Cid × Session :=
  if !s.hasCarrier then (0, s)
  else
    match s.endpointToCid.lookup ep with
    | some cid => (cid, s)
    | none =>
      let cid := env.connect .udp s.draws ep
      if cid = 0 then (0, s.drawn)
      else (cid, { s.drawn with
        endpointToCid := s.endpointToCid.insert ep cid
        cidToEndpointUdp := s.cidToEndpointUdp.insert cid ⟨ep, .udp⟩ })

/-- The synthetic connection id under which relayed STUN from `ep` is dispatched. -/
def relayCidForEndpoint (ep : Endpoint) (s : Session) : Cid × Session :=
  match s.relayEndpointToCid.lookup ep with
  | some cid => (cid, s)
  | none =>
    let cid := s.nextRelayCid
    (cid, { s with
      nextRelayCid := (cid + 1) % 2 ^ 64
      relayEndpointToCid := s.relayEndpointToCid.insert ep cid
      relayCids := s.relayCids.insert cid
      cidToEndpointUdp := s.cidToEndpointUdp.insert cid ⟨ep, .udp⟩ })

/-- Every call opens its own TCP connection. The connect timer stays queued when it is
cancelled: an expiry that is already on its way still fires. -/
def ensureRemoteTcpCid (env : Env) (ep : Endpoint) (s : Session) : Cid × Session :=
  if !s.hasCarrierTcp then (0, s)
  else
    let cid := env.connect .tcp s.draws ep
    if cid = 0 then (0, s.drawn)
    else (cid, ({ s.drawn with
      cidToEndpointTcp := s.cidToEndpointTcp.insert cid ⟨ep, .tcpActive⟩ } : Session).post
        (.tcpConnectTimeout cid))

/-- `tear_down_cids`. The relay maps are not cleared. -/
def tearDownCids (s : Session) : Session :=
  { s with
    endpointToCid := ∅
    cidToEndpointUdp := ∅
    cidToEndpointTcp := ∅
    tcpRxBuffers := ∅ }

def carrierSend (tcp : Bool) (cid : Cid) (p : Payload) (s : Session) : Session :=
  if tcp then (if s.hasCarrierTcp then s.emit (.tcpSend cid p) else s)
  else if s.hasCarrier then s.emit (.udpSend cid p) else s

def carrierUp (tcp : Bool) (s : Session) : Bool := if tcp then s.hasCarrierTcp else s.hasCarrier

def reorderInsert (seq : ℕ) (data : Bytes) : List (ℕ × Bytes) → List (ℕ × Bytes)
  | [] => [(seq, data)]
  | (k, d) :: rest =>
    if seq < k then (seq, data) :: (k, d) :: rest
    else if seq = k then (seq, data) :: rest
    else (k, d) :: reorderInsert seq data rest

def reorderWindow : ℕ := 64

/-- The inner loop of `deliver_in_order`: deliver while the next number is buffered. -/
def drainReorder : ℕ → Session → Session
  | 0, s => s
  | fuel + 1, s =>
    match s.recvReorderBuf.find? fun e => e.1 == s.recvDataSeq with
    | none => s
    | some e =>
      drainReorder fuel (({ s with
        recvReorderBuf := s.recvReorderBuf.filter fun e => e.1 != s.recvDataSeq
        recvDataSeq := (s.recvDataSeq + 1) % 2 ^ 32 } : Session).emit (.onData e.2))

def deliverInOrder (raw : Bytes) (s : Session) : Session :=
  if raw.length < 4 then s
  else
    let seq := read32 raw
    let data := raw.drop 4
    if seq < s.recvDataSeq then s
    else if seq = s.recvDataSeq then
      drainReorder s.recvReorderBuf.length
        (({ s with recvDataSeq := (s.recvDataSeq + 1) % 2 ^ 32 } : Session).emit (.onData data))
    else
      -- an overfull window skips the gap
      let next := if reorderWindow ≤ s.recvReorderBuf.length
        then (s.recvReorderBuf.headD (s.recvDataSeq, [])).1 else s.recvDataSeq
      { s with
        recvDataSeq := next
        recvReorderBuf := reorderInsert seq data s.recvReorderBuf }

def deliver (raw : Bytes) (s : Session) : Session :=
  if s.cfg.orderedDelivery then s.deliverInOrder raw else s.emit (.onData raw)

def nominatedRoute (env : Env) (s : Session) : Cid × Session :=
  if s.nominatedCid = 0 then s.ensureRemoteCid env s.nominatedEp else (s.nominatedCid, s)

def numberFrame (s : Session) (buf : Bytes) : Bytes × Session :=
  if s.cfg.orderedDelivery && !transportIsTcp s.nominatedTransport then
    (be32 s.sendDataSeq ++ buf, { s with sendDataSeq := (s.sendDataSeq + 1) % 2 ^ 32 })
  else (buf, s)

def sendOnStrand (env : Env) (buf : Bytes) (s : Session) : Session :=
  let f := s.numberFrame buf
  if s.usesRelay && s.turn.isSome then f.2.emit (.relaySend s.nominatedEp (.raw f.1))
  else
    let r := f.2.nominatedRoute env
    if r.1 = 0 then r.2
    else ({ r.2 with nominatedCid := r.1 } : Session).carrierSend
      (transportIsTcp s.nominatedTransport) r.1 (.raw f.1)

def noteHanded (buf : Bytes) (s : Session) : Session := { s with handedData := buf :: s.handedData }

def flushPendingAppData (env : Env) (s : Session) : Session :=
  s.pendingAppData.foldl (fun s buf => (s.noteHanded buf).sendOnStrand env buf)
    { s with pendingAppData := [] }

def pendingAppDataMaxFrames : ℕ := 64

def sendPosted (env : Env) (buf : Bytes) (s : Session) : Session :=
  if s.state ≠ .connected then
    let kept := if pendingAppDataMaxFrames ≤ s.pendingAppData.length
      then s.pendingAppData.drop 1 else s.pendingAppData
    { s with pendingAppData := kept ++ [buf] }
  else (s.noteHanded buf).sendOnStrand env buf

def relayCandidate (net : Inet) (ep : Endpoint) : Candidate :=
  Candidate.setAddress net
    { type := .relay, port := ep.port, priority := computePriority .relay 65535 1 } ep.ip

def looksLikeStun (data : Bytes) : Bool :=
  decide (20 ≤ data.length) && (data.getD 0 0 &&& 0xC0) == 0 && read32 (data.drop 4) == magicCookie

/-- One output of a TURN client: bytes to its server, or a call of the allocation or
data callback it was built with. -/
def turnOutput (env : Env) (c : TurnClient) (s : Session) : TurnOutput → Session
  | .toServer b => s.emit (.turnSend c.carrier c.serverCid b)
  | .allocated relay =>
    if c.backup then s.post (.backupAllocated c.cfg)
    else s.post (.turnAllocated (relayCandidate env.net relay))
  | .data peer payload =>
    if c.backup then s
    else if looksLikeStun payload then s.post (.relayStun peer payload)
    else s.deliver payload

def turnOutputs (env : Env) (c : TurnClient) (outs : List TurnOutput) (s : Session) : Session :=
  outs.foldl (fun s o => s.turnOutput env c o) s

def turnCreatePermission (env : Env) (ip : Bytes) (s : Session) : Session :=
  match s.turn with
  | none => s
  | some c =>
    let r := c.createPermission env.net (env.txnId s.draws) ip
    ({ s.drawn with turn := some r.1 } : Session).turnOutputs env r.1 r.2

def turnBindChannel (env : Env) (ep : Endpoint) (s : Session) : Session :=
  match s.turn with
  | none => s
  | some c =>
    let r := c.bindChannel env.net (env.txnId s.draws) ep
    ({ s.drawn with turn := some r.1 } : Session).turnOutputs env r.1 r.2

def turnClose (env : Env) (s : Session) : Session :=
  match s.turn with
  | none => s
  | some c =>
    let r := c.close (env.txnId s.draws)
    ({ s.drawn with turn := some r.1 } : Session).turnOutputs env r.1 r.2

def turnBackupProbeClose (env : Env) (s : Session) : Session :=
  match s.turnBackupProbe with
  | none => s
  | some c =>
    let r := c.close (env.txnId s.draws)
    ({ s.drawn with turnBackupProbe := some r.1 } : Session).turnOutputs env r.1 r.2

def turnOnInbound (env : Env) (bytes : Bytes) (s : Session) : Session :=
  match s.turn with
  | none => s
  | some c =>
    let r := c.onInbound env.net env.md5 (fun k => env.txnId (s.draws + k)) bytes
    ({ s with turn := some r.1, draws := s.draws + (c.rxBuffer ++ bytes).length + 1 }
      : Session).turnOutputs env r.1 r.2

def turnBackupOnInbound (env : Env) (bytes : Bytes) (s : Session) : Session :=
  match s.turnBackupProbe with
  | none => s
  | some c =>
    let r := c.onInbound env.net env.md5 (fun k => env.txnId (s.draws + k)) bytes
    ({ s with turnBackupProbe := some r.1, draws := s.draws + (c.rxBuffer ++ bytes).length + 1 }
      : Session).turnOutputs env r.1 r.2

end Session

end LinkIce
