import LinkIce.Mdns.Message
import LinkIce.Turn.Client

/-! The mDNS manager: its strand handlers, one at a time. -/
namespace LinkIce
open Stun Mdns

/-- `cancelled` after `cancel`; the handler runs once more, in either case. -/
inductive TimerState
  | armed | cancelled | handled
  deriving DecidableEq, Repr

/-- `call` says whose callback it is: the calls of `resolve` are numbered as they run. -/
structure PendingQuery where
  hostnameLc : Bytes
  call : ℕ
  txnId : ℕ
  accumulated : MdnsResolveResult := ⟨false, [], []⟩
  fired : Bool := false
  timer : TimerState := .armed
  deriving DecidableEq, Repr

structure NameRecord where
  ipv4 : List Bytes
  ipv6 : List Bytes
  deriving DecidableEq, Repr

/-- What the manager does to the outside; a send without destination goes to the multicast
group. -/
inductive MdnsOutput
  | callback (call : ℕ) (r : MdnsResolveResult)
  | send (v6 : Bool) (dst : Option Endpoint) (packet : Bytes)
  deriving DecidableEq, Repr

/-- `queries` has every query object that was made, at its number; `pending` has the numbers.
`drains` counts the closures that `stop` has posted, and `asked` has the names of the calls of
`resolve`, as a record for the properties. -/
structure MdnsManager where
  running : Bool := false
  stopping : Bool := false
  v4Open : Bool := false
  v6Open : Bool := false
  localV4 : List Bytes := []
  localV6 : List Bytes := []
  names : AList (fun _ : Bytes => NameRecord) := ∅
  queries : List PendingQuery := []
  pending : AList (fun _ : Bytes => List ℕ) := ∅
  drains : ℕ := 0
  asked : List Bytes := []
  log : List MdnsOutput := []

/-- `start` comes with the interfaces and whether each socket can be bound, `timer` with whether
the wait was cancelled, and `resolve` with the random transaction id. -/
inductive MdnsEvent
  | start (v4 v6 : Bool) (localV4 localV6 : List Bytes)
  | stop
  | drain
  | registerName (hostname : Bytes)
  | unregisterName (hostname : Bytes)
  | resolve (hostname : Bytes) (txnId : ℕ)
  | timer (id : ℕ) (aborted : Bool)
  | packet (v6 : Bool) (bytes : Bytes) (src : Endpoint)
  deriving DecidableEq, Repr

def MdnsResolveResult.accumulate (r : MdnsResolveResult) (ans : DnsAnswer) : MdnsResolveResult :=
  let r := if ans.ipv4 ≠ [] ∧ ans.ipv4 ∉ r.ipv4 then
    { r with ipv4 := r.ipv4 ++ [ans.ipv4], resolved := true } else r
  if ans.ipv6 ≠ [] ∧ ans.ipv6 ∉ r.ipv6 then
    { r with ipv6 := r.ipv6 ++ [ans.ipv6], resolved := true } else r

namespace MdnsManager

variable (net : Inet)

def emit (o : MdnsOutput) (m : MdnsManager) : MdnsManager := { m with log := o :: m.log }

def modifyQuery (id : ℕ) (f : PendingQuery → PendingQuery) (m : MdnsManager) : MdnsManager :=
  { m with queries := m.queries.modify id f }

/-- `timer.cancel()`, which does nothing once the handler has run. -/
def cancelTimer (id : ℕ) (m : MdnsManager) : MdnsManager :=
  m.modifyQuery id fun q => { q with timer := if q.timer = .armed then .cancelled else q.timer }

/-- `fired.exchange(true)`, and the callback if it was false. -/
def fire (id : ℕ) (m : MdnsManager) : MdnsManager :=
  match m.queries[id]? with
  | none => m
  | some q =>
    let m := m.modifyQuery id fun q => { q with fired := true }
    if q.fired then m else m.emit (.callback q.call q.accumulated)

def pendingOf (m : MdnsManager) (name : Bytes) : List ℕ := (m.pending.lookup name).getD []

/-- A name without queries is erased. -/
def setPending (name : Bytes) (ids : List ℕ) (m : MdnsManager) : MdnsManager :=
  { m with pending := if ids = [] then m.pending.erase name else m.pending.insert name ids }

/-! ### Sending -/

def sendPacket (v6 : Bool) (dst : Option Endpoint) (packet : Bytes) (m : MdnsManager) :
    MdnsManager :=
  if packet = [] then m else m.emit (.send v6 dst packet)

def sendQuery (hostnameLc : Bytes) (txnId : ℕ) (m : MdnsManager) : MdnsManager :=
  if m.stopping then m
  else
    let pktA := encodeDnsQuery hostnameLc txnId false
    let pktAaaa := encodeDnsQuery hostnameLc txnId true
    let m := if m.v4Open then (m.sendPacket false none pktA).sendPacket false none pktAaaa else m
    if m.v6Open then (m.sendPacket true none pktA).sendPacket true none pktAaaa else m

/-- The answer goes to the group and to the questioner. -/
def sendAnswer (hostname : Bytes) (rec : NameRecord) (txnId qtype : ℕ) (v6 : Bool) (dst : Endpoint)
    (m : MdnsManager) : MdnsManager :=
  if m.stopping then m
  else
    let v4Out := if qtype = dnsTypeAaaa then [] else rec.ipv4
    let v6Out := if qtype = dnsTypeA then [] else rec.ipv6
    if v4Out = [] ∧ v6Out = [] then m
    else
      let pkt := encodeDnsResponse net hostname txnId v4Out v6Out
      if v6 && m.v6Open then (m.sendPacket true none pkt).sendPacket true (some dst) pkt
      else if m.v4Open then (m.sendPacket false none pkt).sendPacket false (some dst) pkt
      else m

/-! ### The handlers -/

/-- A socket that is open already cannot be opened again; it stays in use. -/
def start (v4 v6 : Bool) (localV4 localV6 : List Bytes) (m : MdnsManager) : MdnsManager :=
  if m.running then m
  else
    let v4Open := m.v4Open || v4
    let v6Open := m.v6Open || v6
    { m with localV4, localV6, v4Open, v6Open, running := v4Open || v6Open }

def stop (m : MdnsManager) : MdnsManager :=
  if m.running then { m with running := false, stopping := true, drains := m.drains + 1 } else m

def drain (m : MdnsManager) : MdnsManager :=
  if m.drains = 0 then m
  else
    let m := { m with drains := m.drains - 1 }
    let m := m.pending.keys.foldl (fun m name =>
      (m.pendingOf name).foldl (fun m id => (m.cancelTimer id).fire id) m) m
    { m with pending := ∅ }

def registerName (hostname : Bytes) (m : MdnsManager) : MdnsManager :=
  { m with names := m.names.insert (lowercase hostname) ⟨m.localV4, m.localV6⟩ }

def unregisterName (hostname : Bytes) (m : MdnsManager) : MdnsManager :=
  { m with names := m.names.erase (lowercase hostname) }

def resolve (hostname : Bytes) (txnId : ℕ) (m : MdnsManager) : MdnsManager :=
  let name := lowercase hostname
  let call := m.asked.length
  let m := { m with asked := m.asked ++ [name] }
  match m.names.lookup name with
  | some rec => m.emit (.callback call ⟨true, rec.ipv4, rec.ipv6⟩)
  | none =>
    let q : PendingQuery := { hostnameLc := name, call, txnId }
    let ids := m.pendingOf name ++ [m.queries.length]
    let m := { m with queries := m.queries ++ [q] }
    (m.setPending name ids).sendQuery name txnId

/-- The handler of the query's timer. With an error it only returns; the error is there only when
the wait was cancelled. -/
def onTimer (id : ℕ) (aborted : Bool) (m : MdnsManager) : MdnsManager :=
  match m.queries[id]? with
  | none => m
  | some q =>
    if q.timer = .handled ∨ (aborted ∧ q.timer ≠ .cancelled) then m
    else
      let m :=
        if aborted ∨ q.fired then m
        else (m.setPending q.hostnameLc ((m.pendingOf q.hostnameLc).filter (· ≠ id))).fire id
      m.modifyQuery id fun q => { q with timer := .handled }

def takeAnswer (m : MdnsManager) (ans : DnsAnswer) : MdnsManager :=
  (m.pendingOf ans.name).foldl (fun m id => m.modifyQuery id fun q =>
    { q with accumulated := q.accumulated.accumulate ans }) m

/-- The inner loop over the queries of one name: those that have an answer fire, and the others
stay. -/
def fireAnswered : List ℕ → MdnsManager → List ℕ × MdnsManager
  | [], m => ([], m)
  | id :: ids, m =>
    if (m.queries[id]?).any fun q => q.accumulated.resolved && !q.fired then
      fireAnswered ids ((m.fire id).cancelTimer id)
    else
      let r := fireAnswered ids m
      (id :: r.1, r.2)

def fireName (m : MdnsManager) (name : Bytes) : MdnsManager :=
  let r := fireAnswered (m.pendingOf name) m
  r.2.setPending name r.1

def onPacket (v6 : Bool) (bytes : Bytes) (src : Endpoint) (m : MdnsManager) : MdnsManager :=
  match parseDnsMessage net bytes with
  | none => m
  | some msg =>
    if msg.isResponse then
      let m := msg.answers.foldl takeAnswer m
      m.pending.keys.foldl fireName m
    else if msg.question = [] then m
    else
      match m.names.lookup msg.question with
      | none => m
      | some rec => m.sendAnswer net msg.question rec msg.txnId msg.qtype v6 src

def rxBufSize : ℕ := 2048

def isOpen (v6 : Bool) (m : MdnsManager) : Bool := if v6 then m.v6Open else m.v4Open

def onReceive (v6 : Bool) (bytes : Bytes) (src : Endpoint) (m : MdnsManager) : MdnsManager :=
  if m.stopping ∨ m.isOpen v6 = false ∨ bytes = [] then m
  else m.onPacket net v6 (bytes.take rxBufSize) src

def step (m : MdnsManager) : MdnsEvent → MdnsManager
  | .start v4 v6 localV4 localV6 => m.start v4 v6 localV4 localV6
  | .stop => m.stop
  | .drain => m.drain
  | .registerName hostname => m.registerName hostname
  | .unregisterName hostname => m.unregisterName hostname
  | .resolve hostname txnId => m.resolve hostname txnId
  | .timer id aborted => m.onTimer id aborted
  | .packet v6 bytes src => m.onReceive net v6 bytes src

def run (es : List MdnsEvent) : MdnsManager := es.foldl (step net) {}

end MdnsManager

end LinkIce
