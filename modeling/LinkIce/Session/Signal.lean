import LinkIce.Mdns.Message
import LinkIce.Session.Nomination

/-! What the peer signals: candidates, flags and resolved mDNS names. -/
namespace LinkIce
open Stun

namespace Session

/-- New remote credentials: the old candidates and pairs go. -/
def forgetRemote (s : Session) : Session :=
  { s with remoteCandidates := [], checkList := [], currentCheck := 0 }

def sameRemote (net : Inet) (c e : Candidate) : Bool :=
  e.addressStr net = c.addressStr net && e.port = c.port && e.type = c.type &&
    e.transport = c.transport

/-- Add a candidate unless it is known by address, port, type and transport. -/
def mergeRemote (env : Env) (s : Session) (c : Candidate) : Session :=
  if s.remoteCandidates.any (sameRemote env.net c) then s
  else
    let s := if s.turnAllocated then s.turnCreatePermission env (c.addressStr env.net) else s
    { s with remoteCandidates := s.remoteCandidates ++ [c] }

def noteEndOfCandidates (s : Session) : Session := { s with remoteEndOfCandidates := true }

/-- The flag is sticky; a regular controller commits to its best pair at once. -/
def onEndOfCandidates (env : Env) (s : Session) : Session :=
  let s := s.noteEndOfCandidates
  if s.controlling && !s.cfg.aggressiveNomination && !s.nomineeSelected then s.pickNominee env
  else s

def resolveRemoteMdnsCandidates (s : Session) : Session :=
  if !s.hasMdns then s
  else
    s.remoteCandidates.zipIdx.foldl (fun s (c, i) =>
      if c.type = .hostMdns ∧ c.hostname ≠ [] ∧ Mdns.isMdnsLocalName c.hostname
      then s.post (.mdnsResolve i c.hostname) else s) s

def publishAnswer (s : Session) : Session :=
  if s.controlling then s else ({ s with gatheredSignalFired := true } : Session).onGathered

/-- The end of `add_remote_candidates`. The first batch returns before the mDNS queries. -/
def onRemoteCandidates (env : Env) (s : Session) : Session :=
  if s.remoteCandidates = [] then s
  else if s.state = .waitingRemote ∨ s.state = .gathering then
    if s.localCandidates = [] then s else s.publishAnswer.startChecking env
  else
    (if s.state = .checking then s.recheck env else s).resolveRemoteMdnsCandidates

def adoptRemoteCredentials (ufrag pwd : Bytes) (s : Session) : Session :=
  let s := if s.remoteUfrag ≠ [] ∧ s.remoteUfrag ≠ ufrag then s.forgetRemote else s
  { s with remoteUfrag := ufrag, remotePwd := pwd }

def addRemoteCandidates (env : Env) (ufrag pwd : Bytes) (cands : List Candidate) (eoc : Bool)
    (s : Session) : Session :=
  let s := s.adoptRemoteCredentials ufrag pwd
  let s := if eoc then s.onEndOfCandidates env else s
  (cands.foldl (mergeRemote env) s).onRemoteCandidates env

def setRemote (env : Env) (ufrag pwd : Bytes) (cands : List Candidate) (s : Session) : Session :=
  let s := { s with remoteUfrag := ufrag, remotePwd := pwd, remoteCandidates := cands }
  let s := if (s.state = .waitingRemote ∨ s.state = .gathering) ∧ s.localCandidates ≠ []
    then s.startChecking env else s
  s.resolveRemoteMdnsCandidates

/-- Only the symmetric-NAT bit of the flags is acted on. -/
def setPeerSignalFlags (env : Env) (symmetric : Bool) (s : Session) : Session :=
  let changed := s.peerSymmetric != symmetric
  let s := { s with peerSymmetric := symmetric }
  if changed ∧ s.state = .checking ∧ s.remoteCandidates ≠ [] ∧ s.localCandidates ≠ []
  then s.recheck env else s

def extraHost (net : Inet) (port : ℕ) (ip : Bytes) : Candidate :=
  Candidate.setAddress net
    { type := .host, port := port, priority := computePriority .host 65535 1 } ip

/-- The slot takes the first address; the others become candidates of their own. Their port is
read through a reference to the slot, which need not be valid after the first `push_back`. -/
def foldResolved (env : Env) (idx : ℕ) (slot : Candidate) (r : MdnsResolveResult) (s : Session) :
    Session :=
  let firstIpv4 := r.ipv4.headD []
  let text := if firstIpv4 = [] then r.ipv6.headD [] else firstIpv4
  let c := Candidate.setAddress env.net { slot with type := .host, hostname := [] } text
  let extra := if firstIpv4 = [] then r.ipv6.drop 1 else r.ipv6
  { s with
    remoteCandidates :=
      s.remoteCandidates.set idx { c with priority := computePriority .host 65535 1 } ++
        (r.ipv4.drop 1 ++ extra).zipIdx.map fun (ip, k) =>
          extraHost env.net (if k = 0 then slot.port else env.danglingPort (s.draws + k)) ip }

def checkResolved (env : Env) (s : Session) : Session :=
  if s.state = .waitingRemote ∨ s.state = .gathering then
    if s.localCandidates = [] then s else s.startChecking env
  else if s.state = .checking then s.recheck env
  else s

def onMdnsResolved (env : Env) (idx : ℕ) (hostname : Bytes) (r : MdnsResolveResult)
    (s : Session) : Session :=
  if s.state = .failed then s
  else
    match s.remoteCandidates[idx]? with
    | none => s
    | some slot =>
      if slot.type ≠ .hostMdns ∨ slot.hostname ≠ hostname then s
      else if !r.resolved ∨ (r.ipv4 = [] ∧ r.ipv6 = []) then
        { s with remoteCandidates :=
            s.remoteCandidates.set idx { slot with type := .host, hostname := [] } }
      else (s.foldResolved env idx slot r).checkResolved env

end Session

end LinkIce
