import LinkIce.Session.Routes
import Mathlib.Data.List.Sort

/-! The check list: construction, initial pair states and unfreezing. -/
namespace LinkIce
open Stun

namespace Candidate

variable {net : Inet} {c : Candidate}

/-- A candidate without a foundation gets one from its own tuple. -/
def withFoundation (net : Inet) (c : Candidate) : Candidate :=
  if c.foundation ≠ [] then c
  else { c with foundation := computeFoundation c.type (c.addressStr net) [] c.transport }

/-- The candidate without the foundation that a rebuild may have given it. -/
def bare (c : Candidate) : Candidate := { c with foundation := [] }

@[simp] theorem bare_withFoundation (net : Inet) (c : Candidate) :
    (c.withFoundation net).bare = c.bare := by
  unfold withFoundation
  split_ifs
  · rfl
  · simp only [bare]

@[simp] theorem withFoundation_addressStr :
    (c.withFoundation net).addressStr net = c.addressStr net := by
  unfold withFoundation
  split_ifs
  · rfl
  · simp only [addressStr]

@[simp] theorem withFoundation_port : (c.withFoundation net).port = c.port := by
  unfold withFoundation
  split_ifs
  · rfl
  · simp only

@[simp] theorem withFoundation_type : (c.withFoundation net).type = c.type := by
  unfold withFoundation
  split_ifs <;> rfl

@[simp] theorem withFoundation_family : (c.withFoundation net).family = c.family := by
  unfold withFoundation
  split_ifs <;> rfl

end Candidate

/-- A TCP candidate pairs with one of the complementary role. -/
def tcpTransportPairs : TransportType → TransportType → Bool
  | .tcpActive, .tcpPassive => true
  | .tcpPassive, .tcpActive => true
  | .tcpSimultaneousOpen, .tcpSimultaneousOpen => true
  | _, _ => false

namespace CheckPair

def tupleKey (p : CheckPair) : Bytes := p.loc.foundation ++ [0x7C] ++ p.rem.foundation

def isPending (p : CheckPair) : Bool :=
  p.state = .frozen || p.state = .waiting || p.state = .inProgress

def admissible (l r : Candidate) : Bool :=
  l.type ≠ .hostMdns && !(r.type = .hostMdns && r.hostname ≠ []) && l.family = r.family &&
    ((l.transport = .udp && r.transport = .udp) || tcpTransportPairs l.transport r.transport)

/-- A fresh pair; the transaction id is drawn when it enters the list. -/
def ofCandidates (controlling : Bool) (l r : Candidate) : CheckPair :=
  { loc := l, rem := r, transportType := l.transport
    priority := pairPriority l.priority r.priority controlling
    txnId := Block.zero 12 }

/-- Copies of `p` aimed at the ports a symmetric NAT is expected to use next. -/
def predicted (stride attempts : ℕ) (p : CheckPair) : List CheckPair :=
  let ports := (List.range attempts).map fun k => p.rem.port + stride * (k + 1)
  (ports.takeWhile (· ≤ 65535)).map fun port =>
    { p with
      priority := p.priority - 1
      rem := { p.rem with
        port := port
        foundation := p.rem.foundation ++ [0x3A, 0x70] ++ decimal port } }

/-- `assign_initial_pair_states`: the first pair of each tuple starts in Waiting. -/
def initialStates : List Bytes → List CheckPair → List CheckPair
  | _, [] => []
  | seen, p :: ps =>
    if p.tupleKey ∈ seen then { p with state := .frozen } :: initialStates seen ps
    else { p with state := .waiting } :: initialStates (p.tupleKey :: seen) ps

def drawTxnIds (env : Env) (draws : ℕ) (ps : List CheckPair) : List CheckPair :=
  ps.zipIdx.map fun (p, k) => { p with txnId := env.txnId (draws + k) }

def unfreeze (lfnd rfnd : Bytes) (p : CheckPair) : CheckPair :=
  if p.state = .frozen ∧ p.loc.foundation = lfnd ∧ p.rem.foundation = rfnd
  then { p with state := .waiting } else p

def unfreezeSiblings (lfnd rfnd : Bytes) (ps : List CheckPair) : List CheckPair :=
  if lfnd = [] ∨ rfnd = [] then ps else ps.map (unfreeze lfnd rfnd)

/-- One Frozen pair of each tuple becomes Waiting. -/
def promoteFrozen : List Bytes → List CheckPair → List CheckPair
  | _, [] => []
  | promoted, p :: ps =>
    if p.state = .frozen ∧ p.tupleKey ∉ promoted
    then { p with state := .waiting } :: promoteFrozen (p.tupleKey :: promoted) ps
    else p :: promoteFrozen promoted ps

def unfreezeStuck (ps : List CheckPair) : List CheckPair :=
  if ps.any fun p => p.state = .waiting || p.state = .inProgress then ps
  else promoteFrozen [] ps

end CheckPair

namespace Session

/-- The stride assumed for a peer behind a symmetric NAT; zero switches prediction off. -/
def predictionStride (s : Session) : ℕ :=
  if !s.peerSymmetric || !s.cfg.symmetricPortPredictionEnabled then 0
  else if s.symmetricStride ≠ 0 then s.symmetricStride else 1

def predictionAttempts (s : Session) : ℕ :=
  if s.predictionStride ≠ 0 then s.cfg.symmetricPortPredictionAttempts else 0

def candidatePairs (s : Session) : List CheckPair :=
  s.localCandidates.flatMap fun l =>
    s.remoteCandidates.flatMap fun r =>
      if CheckPair.admissible l r then
        let p := CheckPair.ofCandidates s.controlling l r
        if r.type = .srflx then p :: p.predicted s.predictionStride s.predictionAttempts else [p]
      else []

def assignLocalFoundations (env : Env) : Session → Session :=
  locked fun s => { s with localCandidates := s.localCandidates.map (·.withFoundation env.net) }

def assignRemoteFoundations (env : Env) (s : Session) : Session :=
  { s with remoteCandidates := s.remoteCandidates.map (·.withFoundation env.net) }

/-- The pairs, with their transaction ids, sorted by falling priority. -/
def fillCheckList (env : Env) (s : Session) : Session :=
  let ps := CheckPair.drawTxnIds env s.draws s.candidatePairs
  { s with
    draws := s.draws + ps.length
    checkList := CheckPair.initialStates []
      (ps.insertionSort fun a b => b.priority ≤ a.priority)
    currentCheck := 0 }

/-- `build_check_list`. `assign_local_foundations` runs inside the critical section. -/
def buildCheckList (env : Env) : Session → Session :=
  locked fun s =>
    fillCheckList env (assignRemoteFoundations env (assignLocalFoundations env
      { s with checkList := [] }))

/-- All that a rebuild writes. -/
theorem buildCheckList_eq {env : Env} {s : Session} : ∃ mu draws ps,
    s.buildCheckList env = { s with
      mu
      draws
      localCandidates := s.localCandidates.map (·.withFoundation env.net)
      remoteCandidates := s.remoteCandidates.map (·.withFoundation env.net)
      checkList := ps
      currentCheck := 0 } := by
  unfold buildCheckList locked
  dsimp only [fillCheckList, assignRemoteFoundations, assignLocalFoundations, locked]
  exact ⟨_, _, _, rfl⟩

def inProgressCount (s : Session) : ℕ := s.checkList.countP (·.state = .inProgress)

def modifyPair (i : ℕ) (f : CheckPair → CheckPair) (s : Session) : Session :=
  { s with checkList := s.checkList.modify i f }

def unfreezeSiblings (lfnd rfnd : Bytes) (s : Session) : Session :=
  { s with checkList := CheckPair.unfreezeSiblings lfnd rfnd s.checkList }

def unfreezeStuckPairs (s : Session) : Session :=
  { s with checkList := CheckPair.unfreezeStuck s.checkList }

/-- A pair that completes without success releases its siblings. -/
def failPair (i : ℕ) (s : Session) : Session :=
  match s.checkList[i]? with
  | none => s
  | some p =>
    (s.modifyPair i fun p => { p with state := .failed }).unfreezeSiblings
      p.loc.foundation p.rem.foundation

end Session

end LinkIce
