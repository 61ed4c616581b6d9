import LinkIce.Session.Step
import LinkIce.SignalCodec
import LinkIce.Turn.Streams

/-! Operations that leave the state machine alone. `Core` is the part of a session that
the check and nomination logic reads; a quiet operation keeps it. -/
namespace LinkIce
open Stun List Option

/-- The fields that only the check, nomination and signalling logic writes. -/
structure Core where
  cfg : IceConfig
  hasCarrier : Bool
  hasCarrierTcp : Bool
  hasTimer : Bool
  hasMdns : Bool
  state : SessionState
  controlling : Bool
  tiebreaker : ℕ
  localUfrag : Bytes
  localPwd : Bytes
  localCandidates : List Candidate
  remoteUfrag : Bytes
  remotePwd : Bytes
  remoteCandidates : List Candidate
  checkList : List CheckPair
  nomineeSelected : Bool
  pendingNomEp : Endpoint
  pendingNomRelay : Bool
  pendingNomCid : Cid
  pendingNomTx : TransportType
  nominationWaitArmed : Bool
  consentMissed : ℕ
  consentRecoveryAttempts : ℕ
  autoRestartAttempts : ℕ
  autoRestartLast : ℕ
  remoteEndOfCandidates : Bool
  stunGathered : Bool
  turnGathering : Bool
  turnServers : List TurnConfig
  turnAttemptIdx : ℕ
  nominatedEp : Endpoint
  nominatedTransport : TransportType
  usesRelay : Bool

def Session.core (s : Session) : Core where
  cfg := s.cfg
  hasCarrier := s.hasCarrier
  hasCarrierTcp := s.hasCarrierTcp
  hasTimer := s.hasTimer
  hasMdns := s.hasMdns
  state := s.state
  controlling := s.controlling
  tiebreaker := s.tiebreaker
  localUfrag := s.localUfrag
  localPwd := s.localPwd
  localCandidates := s.localCandidates
  remoteUfrag := s.remoteUfrag
  remotePwd := s.remotePwd
  remoteCandidates := s.remoteCandidates
  checkList := s.checkList
  nomineeSelected := s.nomineeSelected
  pendingNomEp := s.pendingNomEp
  pendingNomRelay := s.pendingNomRelay
  pendingNomCid := s.pendingNomCid
  pendingNomTx := s.pendingNomTx
  nominationWaitArmed := s.nominationWaitArmed
  consentMissed := s.consentMissed
  consentRecoveryAttempts := s.consentRecoveryAttempts
  autoRestartAttempts := s.autoRestartAttempts
  autoRestartLast := s.autoRestartLast
  remoteEndOfCandidates := s.remoteEndOfCandidates
  stunGathered := s.stunGathered
  turnGathering := s.turnGathering
  turnServers := s.turnServers
  turnAttemptIdx := s.turnAttemptIdx
  nominatedEp := s.nominatedEp
  nominatedTransport := s.nominatedTransport
  usesRelay := s.usesRelay

def Core.wiring (c : Core) : IceConfig × ℕ × Bool × Bool × Bool × Bool :=
  (c.cfg, c.tiebreaker, c.hasCarrier, c.hasCarrierTcp, c.hasTimer, c.hasMdns)

structure Links where
  endpointToCid : AList (fun _ : Endpoint => Cid)
  cidToEndpointUdp : AList (fun _ : Cid => EndpointInfo)
  relayEndpointToCid : AList (fun _ : Endpoint => Cid)
  relayCids : List Cid
  nextRelayCid : Cid
  tcpRxBuffers : AList (fun _ : Cid => Bytes)

def Session.links (s : Session) : Links where
  endpointToCid := s.endpointToCid
  cidToEndpointUdp := s.cidToEndpointUdp
  relayEndpointToCid := s.relayEndpointToCid
  relayCids := s.relayCids
  nextRelayCid := s.nextRelayCid
  tcpRxBuffers := s.tcpRxBuffers

/-- A connection to a new endpoint, over the UDP carrier or through the relay. -/
inductive Links.Opens : Links → Links → Prop
  | udp (k : Links) (ep : Endpoint) (cid : Cid) (h : k.endpointToCid.lookup ep = none) :
      Opens k { k with
        endpointToCid := k.endpointToCid.insert ep cid
        cidToEndpointUdp := k.cidToEndpointUdp.insert cid ⟨ep, .udp⟩ }
  | relay (k : Links) (ep : Endpoint) (h : k.relayEndpointToCid.lookup ep = none) :
      Opens k { k with
        nextRelayCid := (k.nextRelayCid + 1) % 2 ^ 64
        relayEndpointToCid := k.relayEndpointToCid.insert ep k.nextRelayCid
        relayCids := k.relayCids.insert k.nextRelayCid
        cidToEndpointUdp := k.cidToEndpointUdp.insert k.nextRelayCid ⟨ep, .udp⟩ }

/-- Application bytes and requests without any attribute. -/
def Payload.isQuiet : Payload → Bool
  | raw _ => true
  | stun b => b.attrs.isEmpty

namespace Effect

def isQuiet : Effect → Bool
  | udpSend _ p | tcpSend _ p | relaySend _ p => p.isQuiet
  | turnSend _ _ _ => true
  | _ => false

def isData : Effect → Bool
  | onData _ => true
  | _ => false

def isRoutine (e : Effect) : Bool := e.isQuiet || e.isData

theorem isRoutine_of_quiet {e : Effect} (h : e.isQuiet = true) : e.isRoutine = true := by
  simp [isRoutine, h]

end Effect

/-- Everything a quiet operation has to answer for but the number of draws. -/
structure Frame where
  core : Core
  mu : Mutex
  nominatedCid : Cid
  links : Links
  gatherGen : ℕ
  turnAllocateGen : ℕ
  queue : List Task
  log : List Effect
  turn : Option TurnClient
  relayChecks : List (Endpoint × List Bytes)

def Session.frame (s : Session) : Frame where
  core := s.core
  mu := s.mu
  nominatedCid := s.nominatedCid
  links := s.links
  gatherGen := s.gatherGen
  turnAllocateGen := s.turnAllocateGen
  queue := s.queue
  log := s.log
  turn := s.turn
  relayChecks := s.relayChecks

/-- Work that any handler may queue. Names are looked up in one place only. -/
def Task.Ordinary : Task → Prop
  | .turnAllocated c => c.Own
  | .mdnsResolve _ _ => False
  | _ => True

/-- An allocated client is the one before, and it has lost no permission. -/
def TurnCarried (before after : Option TurnClient) : Prop :=
  ∀ k ∈ after, k.allocated = true →
    ∃ k₀ ∈ before, k₀.allocated = true ∧ k₀.permissions ⊆ k.permissions

namespace TurnCarried

variable {k : TurnClient}

theorem refl (c : Option TurnClient) : TurnCarried c c :=
  fun k hk ha => ⟨k, hk, ha, List.Subset.refl _⟩

theorem trans {a b c : Option TurnClient} (hab : TurnCarried a b) (hbc : TurnCarried b c) :
    TurnCarried a c := by
  intro k hk ha
  obtain ⟨k₁, hk₁, ha₁, hsub⟩ := hbc k hk ha
  obtain ⟨k₀, hk₀, ha₀, hsub₀⟩ := hab k₁ hk₁ ha₁
  exact ⟨k₀, hk₀, ha₀, List.Subset.trans hsub₀ hsub⟩

theorem none (c : Option TurnClient) : TurnCarried c none := nofun

theorem idle (c : Option TurnClient) (h : k.allocated = false) : TurnCarried c (some k) := by
  intro k' hk ha
  obtain rfl := some.inj hk
  rw [h] at ha
  cases ha

theorem grow {k k' : TurnClient} (ha : k'.allocated = true → k.allocated = true)
    (hp : k.permissions ⊆ k'.permissions) : TurnCarried (some k) (some k') := by
  intro k'' hk h
  obtain rfl := some.inj hk
  exact ⟨k, rfl, ha h, hp⟩

end TurnCarried

/-- A client that has an allocation keeps it, under the same relayed address. -/
def turnStays (before after : Option TurnClient) : Bool :=
  before.all fun k₀ => !k₀.allocated || after.any fun k => k.allocated && k.relayed = k₀.relayed

theorem turnStays_iff {before after : Option TurnClient} :
    turnStays before after = true ↔ ∀ k₀ ∈ before, k₀.allocated = true →
      ∃ k ∈ after, k.allocated = true ∧ k.relayed = k₀.relayed := by
  simp [turnStays, Option.all_eq_true, Option.any_eq_true, imp_iff_not_or]

theorem turnStays_refl {c : Option TurnClient} : turnStays c c = true :=
  turnStays_iff.mpr fun k hk ha => ⟨k, hk, ha, rfl⟩

theorem turnStays_trans {a b c : Option TurnClient} (hab : turnStays a b = true)
    (hbc : turnStays b c = true) : turnStays a c = true := by
  rw [turnStays_iff] at *
  intro k hk ha
  obtain ⟨k₁, hk₁, ha₁, hr₁⟩ := hab k hk ha
  obtain ⟨k₂, hk₂, ha₂, hr₂⟩ := hbc k₁ hk₁ ha₁
  exact ⟨k₂, hk₂, ha₂, hr₂.trans hr₁⟩

theorem turnStays_update {k k' : TurnClient} (ha : k'.allocated = k.allocated)
    (hr : k'.relayed = k.relayed) : turnStays (some k) (some k') = true := by
  refine turnStays_iff.mpr fun k₀ hk h => ?_
  obtain rfl := some.inj hk
  exact ⟨k', rfl, ha.trans h, hr⟩

namespace TurnClient

variable {net : Inet} {c : TurnClient} {txn : TransactionId} {ip bytes : Bytes} {peer : Endpoint}
  {md5 : Bytes → Bytes}

theorem createPermission_stays :
    turnStays (some c) (some (c.createPermission net txn ip).1) = true := by
  unfold createPermission
  split_ifs
  exacts [turnStays_refl, turnStays_update rfl rfl]

theorem bindChannel_stays : turnStays (some c) (some (c.bindChannel net txn peer).1) = true := by
  unfold bindChannel
  dsimp only
  split_ifs
  exacts [turnStays_refl, turnStays_refl, turnStays_update rfl rfl, turnStays_update rfl rfl]

theorem createPermission_carried :
    TurnCarried (some c) (some (c.createPermission net txn ip).1) := by
  unfold createPermission
  split_ifs
  · exact .refl _
  · exact .grow id (subset_cons_self _ _)

theorem bindChannel_carried : TurnCarried (some c) (some (c.bindChannel net txn peer).1) := by
  unfold bindChannel
  split_ifs
  · exact .refl _
  · exact .refl _
  · dsimp only
    split_ifs
    · exact .grow id (List.Subset.refl _)
    · exact .grow id fun ip h => mem_insert_of_mem h

/-- What no message from the server changes. -/
theorem onInbound_fixed {txn : ℕ → TransactionId} :
    (c.onInbound net md5 txn bytes).1.permissions = c.permissions ∧
      (c.onInbound net md5 txn bytes).1.backup = c.backup ∧
      (c.onInbound net md5 txn bytes).1.serverCid = c.serverCid := by
  obtain ⟨_, _, _, _, _, _, _, h⟩ := onInbound_client net md5 txn c bytes
  rw [h]
  exact ⟨rfl, rfl, rfl⟩

theorem dispatchInboundMessage_allocates (net : Inet) (md5 : Bytes → Bytes) (c : TurnClient)
    (txn : TransactionId) (bytes : Bytes)
    (h : (c.dispatchInboundMessage net md5 txn bytes).1.allocated = true) :
    c.allocated = true ∨
      ∃ relay, .allocated relay ∈ (c.dispatchInboundMessage net md5 txn bytes).2 := by
  unfold dispatchInboundMessage at h ⊢
  split_ifs at h ⊢
  · exact .inl h
  · split at h
    · exact .inl h
    · split_ifs at h ⊢
      · unfold handleAllocateError at h
        split_ifs at h
        exacts [.inl h, .inl h]
      · unfold handleAllocateResponse at h ⊢
        split at h
        · exact .inl h
        · exact .inr ⟨_, mem_singleton_self _⟩
      · exact .inl h
      · exact .inl h

private theorem drainFrames_allocates (net : Inet) (md5 : Bytes → Bytes) (txn : ℕ → TransactionId)
    (fuel : ℕ) (c : TurnClient) (h : (drainFrames net md5 txn fuel c).1.allocated = true) :
    c.allocated = true ∨ ∃ relay, .allocated relay ∈ (drainFrames net md5 txn fuel c).2 := by
  induction fuel generalizing c with
  | zero => exact .inl h
  | succ fuel ih =>
    simp only [drainFrames] at h ⊢
    split at h
    · exact .inl h
    · rcases ih _ h with hone | ⟨relay, hmore⟩
      · rcases dispatchInboundMessage_allocates net md5 _ _ _ hone with hc | ⟨relay, hout⟩
        · exact .inl hc
        · exact .inr ⟨relay, mem_append_left _ hout⟩
      · exact .inr ⟨relay, mem_append_right _ hmore⟩

theorem onInbound_allocates {txn : ℕ → TransactionId}
    (h : (c.onInbound net md5 txn bytes).1.allocated = true) :
    c.allocated = true ∨ ∃ relay, .allocated relay ∈ (c.onInbound net md5 txn bytes).2 := by
  unfold onInbound at h ⊢
  split_ifs at h ⊢
  · exact drainFrames_allocates net md5 txn _ _ h
  · exact dispatchInboundMessage_allocates net md5 _ _ _ h

theorem createPermission_backup : (c.createPermission net txn ip).1.backup = c.backup := by
  unfold createPermission
  split_ifs <;> rfl

theorem bindChannel_backup : (c.bindChannel net txn peer).1.backup = c.backup := by
  unfold bindChannel
  dsimp only
  split_ifs <;> rfl

theorem close_idle : (c.close txn).1.allocated = false := by
  unfold close
  split_ifs with h
  · simpa using h
  · rfl

end TurnClient

/-- `t` differs from `s` outside the core only, and only effects in `P` were logged. -/
structure KeepsCore (P : Effect → Bool) (s t : Session) : Prop where
  core : t.core = s.core
  mu : t.mu = s.mu
  nominatedCid : s.nominatedCid ≠ 0 → t.nominatedCid = s.nominatedCid
  links : Relation.ReflTransGen Links.Opens s.links t.links
  posts : ∀ k ∈ t.queue, k ∈ s.queue ∨ k.Ordinary
  draws : s.draws ≤ t.draws
  log : ∃ new, t.log = new ++ s.log ∧ ∀ e ∈ new, P e = true
  relayChecks : t.relayChecks = s.relayChecks

/-- The timers of the gathering phase are not touched and no queued work is dropped. -/
structure GatherKept (s t : Session) : Prop where
  gatherGen : t.gatherGen = s.gatherGen
  turnAllocateGen : t.turnAllocateGen = s.turnAllocateGen
  queue : s.queue ⊆ t.queue

theorem GatherKept.refl (s : Session) : GatherKept s s := ⟨rfl, rfl, List.Subset.refl _⟩

theorem GatherKept.trans {s t u : Session} (hst : GatherKept s t) (htu : GatherKept t u) :
    GatherKept s u where
  gatherGen := htu.gatherGen.trans hst.gatherGen
  turnAllocateGen := htu.turnAllocateGen.trans hst.turnAllocateGen
  queue := List.Subset.trans hst.queue htu.queue

/-- Moreover no TURN client has got an allocation. Gathering itself works like this: it
rearms its timers and gives up clients. -/
structure Works (P : Effect → Bool) (s t : Session) : Prop extends KeepsCore P s t where
  turn : TurnCarried s.turn t.turn

/-- Moreover the gathering phase and an allocated client are left alone. -/
structure Keeps (P : Effect → Bool) (s t : Session) : Prop extends Works P s t where
  gatherGen : t.gatherGen = s.gatherGen
  turnAllocateGen : t.turnAllocateGen = s.turnAllocateGen
  queue : s.queue ⊆ t.queue
  stays : turnStays s.turn t.turn = true
  backup : t.turn.map (·.backup) = s.turn.map (·.backup)

abbrev Quiet : Session → Session → Prop := Keeps Effect.isQuiet

abbrev Delivers : Session → Session → Prop := Keeps Effect.isRoutine

namespace KeepsCore

variable {P : Effect → Bool} {s t u : Session}

theorem refl (s : Session) : KeepsCore P s s where
  core := rfl
  mu := rfl
  nominatedCid _ := rfl
  links := .refl
  posts _ := .inl
  draws := le_rfl
  log := ⟨[], rfl, by simp⟩
  relayChecks := rfl

theorem trans (hst : KeepsCore P s t) (htu : KeepsCore P t u) : KeepsCore P s u := by
  obtain ⟨new, hn, hq⟩ := hst.log
  obtain ⟨more, hm, hr⟩ := htu.log
  have hcid : s.nominatedCid ≠ 0 → u.nominatedCid = s.nominatedCid := by
    intro h
    have ht := hst.nominatedCid h
    rw [htu.nominatedCid (by rwa [ht]), ht]
  have hposts (k : Task) (hk : k ∈ u.queue) : k ∈ s.queue ∨ k.Ordinary :=
    (htu.posts k hk).elim (hst.posts k) .inr
  have hlog : ∀ e ∈ more ++ new, P e = true := by
    intro e he
    rcases mem_append.mp he with h | h
    exacts [hr e h, hq e h]
  exact
    { core := htu.core.trans hst.core
      mu := htu.mu.trans hst.mu
      nominatedCid := hcid
      links := hst.links.trans htu.links
      posts := hposts
      draws := hst.draws.trans htu.draws
      log := ⟨more ++ new, by rw [hm, hn, append_assoc], hlog⟩
      relayChecks := htu.relayChecks.trans hst.relayChecks }

section fields

variable (h : KeepsCore P s t)
include h

theorem allocated (c : Candidate) (hc : .turnAllocated c ∈ t.queue) :
    .turnAllocated c ∈ s.queue ∨ c.Own := h.posts _ hc

theorem state : t.state = s.state := congrArg Core.state h.core
theorem cfg : t.cfg = s.cfg := congrArg Core.cfg h.core
theorem controlling : t.controlling = s.controlling := congrArg Core.controlling h.core
theorem checkList : t.checkList = s.checkList := congrArg Core.checkList h.core
theorem localCandidates : t.localCandidates = s.localCandidates :=
  congrArg Core.localCandidates h.core
theorem remoteCandidates : t.remoteCandidates = s.remoteCandidates :=
  congrArg Core.remoteCandidates h.core

theorem stunGathered : t.stunGathered = s.stunGathered := congrArg Core.stunGathered h.core
theorem turnGathering : t.turnGathering = s.turnGathering := congrArg Core.turnGathering h.core
theorem turnServers : t.turnServers = s.turnServers := congrArg Core.turnServers h.core
theorem turnAttemptIdx : t.turnAttemptIdx = s.turnAttemptIdx :=
  congrArg Core.turnAttemptIdx h.core

end fields

end KeepsCore

namespace Works

variable {P : Effect → Bool} {s t u : Session}

theorem refl (s : Session) : Works P s s where
  toKeepsCore := .refl s
  turn := .refl _

theorem trans (hst : Works P s t) (htu : Works P t u) : Works P s u where
  toKeepsCore := hst.toKeepsCore.trans htu.toKeepsCore
  turn := hst.turn.trans htu.turn

theorem after (htu : Works P t u) (hst : Works P s t) : Works P s u := hst.trans htu

/-- The TURN client changes, and no other one gets an allocation. -/
theorem client {c : Option TurnClient} (s : Session) (n : ℕ) (hd : s.draws ≤ n)
    (hc : TurnCarried s.turn c) : Works P s { s with turn := c, draws := n } :=
  { refl (P := P) s with draws := hd, turn := hc }

end Works

namespace Keeps

variable {P Q : Effect → Bool} {s t u : Session} {k : Task}

theorem refl (s : Session) : Keeps P s s where
  toWorks := .refl s
  gatherGen := rfl
  turnAllocateGen := rfl
  queue := List.Subset.refl _
  stays := turnStays_refl
  backup := rfl

theorem mono (h : Keeps P s t) (hPQ : ∀ e, P e = true → Q e = true) : Keeps Q s t := by
  obtain ⟨new, hn, hp⟩ := h.log
  exact { h with log := ⟨new, hn, fun e he => hPQ e (hp e he)⟩ }

theorem delivers (h : Quiet s t) : Delivers s t := h.mono fun _ => Effect.isRoutine_of_quiet

theorem trans (hst : Keeps P s t) (htu : Keeps P t u) : Keeps P s u where
  toWorks := hst.toWorks.trans htu.toWorks
  gatherGen := htu.gatherGen.trans hst.gatherGen
  turnAllocateGen := htu.turnAllocateGen.trans hst.turnAllocateGen
  queue := List.Subset.trans hst.queue htu.queue
  stays := turnStays_trans hst.stays htu.stays
  backup := htu.backup.trans hst.backup

theorem gather (h : Keeps P s t) : GatherKept s t := ⟨h.gatherGen, h.turnAllocateGen, h.queue⟩

theorem after (htu : Keeps P t u) (hst : Keeps P s t) : Keeps P s u := hst.trans htu

theorem connects (hf : t.frame = { s.frame with links := t.links }) (hd : s.draws ≤ t.draws)
    (hk : Relation.ReflTransGen Links.Opens s.links t.links) : Keeps P s t := by
  have hqueue : t.queue = s.queue := congrArg Frame.queue hf
  have hturn : t.turn = s.turn := congrArg Frame.turn hf
  exact
    { core := congrArg Frame.core hf
      mu := congrArg Frame.mu hf
      nominatedCid := fun _ => congrArg Frame.nominatedCid hf
      links := hk
      posts := fun _ h => .inl (hqueue ▸ h)
      draws := hd
      log := ⟨[], congrArg Frame.log hf, by simp⟩
      turn := hturn ▸ .refl _
      gatherGen := congrArg Frame.gatherGen hf
      turnAllocateGen := congrArg Frame.turnAllocateGen hf
      queue := hqueue ▸ List.Subset.refl _
      stays := hturn ▸ turnStays_refl
      backup := hturn ▸ rfl
      relayChecks := congrArg Frame.relayChecks hf }

/-- Nothing that counts changes. -/
theorem silent (hf : t.frame = s.frame) (hd : s.draws ≤ t.draws) : Keeps P s t := by
  have hlinks : t.links = s.links := congrArg Frame.links hf
  exact connects (hlinks ▸ hf) hd (hlinks ▸ .refl)

/-- One task is queued. -/
theorem queues (hf : t.frame = { s.frame with queue := k :: s.queue })
    (hd : s.draws ≤ t.draws) (hk : k.Ordinary) : Keeps P s t := by
  have hs : Keeps P s { t with queue := s.queue } :=
    silent (congrArg (fun f : Frame => { f with queue := s.queue }) hf) hd
  have hq : t.queue = k :: s.queue := congrArg Frame.queue hf
  have hsub : s.queue ⊆ t.queue := hq ▸ subset_cons_self k s.queue
  refine { hs with queue := hsub, posts := fun j hj => ?_ }
  rw [hq, mem_cons] at hj
  rcases hj with rfl | hj
  exacts [.inr hk, .inl hj]

theorem post (s : Session) (hk : k.Ordinary) : Keeps P s (s.post k) :=
  queues rfl le_rfl hk

theorem emit (s : Session) (e : Effect) (he : P e = true) : Keeps P s (s.emit e) :=
  { refl (P := P) s with log := ⟨[e], rfl, by simpa using he⟩ }

theorem opens (hf : t.frame = { s.frame with links := t.links }) (hd : s.draws ≤ t.draws)
    (hk : Links.Opens s.links t.links) : Keeps P s t := connects hf hd (.single hk)

theorem drawn (s : Session) : Keeps P s s.drawn := silent rfl (Nat.le_succ _)

/-- Timers of the gathering phase are outdated. -/
theorem outdates (hf : t.frame = { s.frame with
      gatherGen := t.gatherGen
      turnAllocateGen := t.turnAllocateGen }) (hd : s.draws ≤ t.draws) : Works P s t := by
  have hs : Keeps P s { t with gatherGen := s.gatherGen, turnAllocateGen := s.turnAllocateGen } :=
    silent (congrArg (fun f : Frame => { f with
      gatherGen := s.gatherGen
      turnAllocateGen := s.turnAllocateGen }) hf) hd
  exact { hs.toWorks with }

/-- One of them is armed. -/
theorem arms (hf : t.frame = { s.frame with
      gatherGen := t.gatherGen
      turnAllocateGen := t.turnAllocateGen
      queue := k :: s.queue }) (hd : s.draws ≤ t.draws) (hk : k.Ordinary) : Works P s t := by
  have hs : Keeps P s { t with gatherGen := s.gatherGen, turnAllocateGen := s.turnAllocateGen } :=
    queues (congrArg (fun f : Frame => { f with
      gatherGen := s.gatherGen
      turnAllocateGen := s.turnAllocateGen }) hf) hd hk
  exact { hs.toWorks with }

theorem client {c : Option TurnClient} (s : Session) (n : ℕ) (hd : s.draws ≤ n)
    (hc : TurnCarried s.turn c) (hs : turnStays s.turn c = true)
    (hb : c.map (·.backup) = s.turn.map (·.backup)) :
    Keeps P s { s with turn := c, draws := n } :=
  { refl (P := P) s with draws := hd, turn := hc, stays := hs, backup := hb }

theorem foldl {α : Type} {f : Session → α → Session} (hf : ∀ s a, Keeps P s (f s a))
    (as : List α) (s : Session) : Keeps P s (as.foldl f s) := by
  induction as generalizing s with
  | nil => exact refl s
  | cons a as ih => exact (hf s a).trans (ih (f s a))

end Keeps

namespace Session

variable (env : Env) (s : Session) {c : TurnClient} {outs : List TurnOutput} {p : Payload}
  {raw text bytes : Bytes} {net : Inet} {cid : Cid}

theorem ensureRemoteCid_quiet (ep : Endpoint) : Quiet s (s.ensureRemoteCid env ep).2 := by
  unfold ensureRemoteCid
  split_ifs
  · exact .refl s
  · split
    · exact .refl s
    · rename_i h
      dsimp only
      split_ifs
      · exact .drawn s
      · exact .opens rfl (Nat.le_succ _) (.udp s.links ep _ h)

theorem relayCidForEndpoint_quiet (ep : Endpoint) : Quiet s (s.relayCidForEndpoint ep).2 := by
  unfold relayCidForEndpoint
  split
  · exact .refl s
  · rename_i h
    exact .opens rfl le_rfl (.relay s.links ep h)

theorem ensureRemoteTcpCid_quiet (ep : Endpoint) : Quiet s (s.ensureRemoteTcpCid env ep).2 := by
  unfold ensureRemoteTcpCid
  split_ifs
  · exact .refl s
  · dsimp only
    split_ifs
    · exact .drawn s
    · exact .queues rfl (Nat.le_succ _) trivial

theorem carrierSend_keeps {P : Effect → Bool} (tcp : Bool)
    (ht : P (.tcpSend cid p) = true) (hu : P (.udpSend cid p) = true) :
    Keeps P s (s.carrierSend tcp cid p) := by
  unfold carrierSend
  split_ifs
  exacts [.emit s _ ht, .refl s, .emit s _ hu, .refl s]

theorem carrierSend_quiet {tcp : Bool} (hp : p.isQuiet = true) :
    Quiet s (s.carrierSend tcp cid p) := carrierSend_keeps s tcp hp hp

theorem drainReorder_delivers {fuel : ℕ} : Delivers s (drainReorder fuel s) := by
  induction fuel generalizing s with
  | zero => exact .refl s
  | succ fuel ih =>
    simp only [drainReorder]
    split
    · exact .refl s
    · refine Keeps.trans ?_ (ih _)
      exact Keeps.after (.emit _ _ rfl) (.silent rfl le_rfl)

theorem deliverInOrder_delivers : Delivers s (s.deliverInOrder raw) := by
  unfold deliverInOrder
  dsimp only
  split_ifs
  · exact .refl s
  · exact .refl s
  · refine Keeps.trans ?_ (drainReorder_delivers _)
    exact Keeps.after (.emit _ _ rfl) (.silent rfl le_rfl)
  · exact .silent rfl le_rfl
  · exact .silent rfl le_rfl

theorem deliver_delivers : Delivers s (s.deliver raw) := by
  unfold deliver
  split_ifs
  exacts [deliverInOrder_delivers s, .emit s _ rfl]

theorem numberFrame_quiet (buf : Bytes) : Quiet s (s.numberFrame buf).2 := by
  unfold numberFrame
  split_ifs
  exacts [.silent rfl le_rfl, .refl s]

theorem nominatedRoute_quiet : Quiet s (s.nominatedRoute env).2 := by
  unfold nominatedRoute
  split_ifs
  exacts [ensureRemoteCid_quiet env s _, .refl s]

private theorem nominatedRoute_quiet_set :
    Quiet s { (s.nominatedRoute env).2 with nominatedCid := (s.nominatedRoute env).1 } := by
  have hq := nominatedRoute_quiet env s
  refine { hq with nominatedCid := ?_ }
  intro h
  simp [nominatedRoute, h]

theorem sendOnStrand_quiet (buf : Bytes) : Quiet s (s.sendOnStrand env buf) := by
  unfold sendOnStrand
  dsimp only
  refine (numberFrame_quiet s buf).trans ?_
  split_ifs
  · exact .emit _ _ rfl
  · exact nominatedRoute_quiet env _
  · exact (nominatedRoute_quiet_set env _).trans (carrierSend_quiet _ rfl)

theorem handOver_quiet (buf : Bytes) : Quiet s ((s.noteHanded buf).sendOnStrand env buf) :=
  (sendOnStrand_quiet env _ buf).after (.silent rfl le_rfl)

theorem flushPendingAppData_quiet : Quiet s (s.flushPendingAppData env) :=
  Keeps.after (.foldl (fun s buf => handOver_quiet env s buf) _ _) (.silent rfl le_rfl)

theorem sendPosted_quiet (buf : Bytes) : Quiet s (s.sendPosted env buf) := by
  unfold sendPosted
  split_ifs
  exacts [.silent rfl le_rfl, .silent rfl le_rfl, handOver_quiet env s buf]

theorem setAddress_type {c : Candidate} : (c.setAddress net text).type = c.type := by
  unfold Candidate.setAddress
  split
  · rfl
  · split <;> rfl

/-- The text of an address changes nothing but address and family. -/
theorem setAddress_shaped {c : Candidate} (h : c.Shaped) : (c.setAddress net text).Shaped := by
  unfold Candidate.setAddress
  split
  · exact ⟨h.type, by simp, h.hostname⟩
  · split
    · exact ⟨h.type, by simp, h.hostname⟩
    · exact h

theorem setAddress_listing {c : Candidate} :
    (c.setAddress net text).foundation = c.foundation ∧
      (c.setAddress net text).priority = c.priority := by
  unfold Candidate.setAddress
  split
  · exact ⟨rfl, rfl⟩
  · split <;> exact ⟨rfl, rfl⟩

theorem relayCandidate_own {ep : Endpoint} : (relayCandidate net ep).Own where
  toShaped := setAddress_shaped ⟨by simp, by simp, by simp⟩
  foundation := by simp [relayCandidate, setAddress_listing.1]
  priority := by
    rw [relayCandidate, setAddress_listing.2]
    exact computePriority_pos (by decide)

theorem turnOutput_delivers (c : TurnClient) (o : TurnOutput) :
    Delivers s (s.turnOutput env c o) := by
  cases o with
  | toServer b => exact .emit s _ rfl
  | allocated relay =>
    simp only [turnOutput]
    split_ifs
    · exact .post s trivial
    · exact .post s relayCandidate_own
  | data peer payload =>
    simp only [turnOutput]
    split_ifs
    exacts [.refl s, .post s trivial, deliver_delivers s]

theorem turnOutputs_delivers (c : TurnClient) (outs : List TurnOutput) :
    Delivers s (s.turnOutputs env c outs) :=
  .foldl (fun s o => turnOutput_delivers env s c o) outs s

theorem drainReorder_turn (fuel : ℕ) : (drainReorder fuel s).turn = s.turn := by
  induction fuel generalizing s with
  | zero => rfl
  | succ fuel ih =>
    simp only [drainReorder]
    split
    · rfl
    · rw [ih]
      rfl

theorem deliver_turn : (s.deliver raw).turn = s.turn := by
  unfold deliver deliverInOrder
  dsimp only
  split_ifs
  · rfl
  · rfl
  · exact drainReorder_turn _ _
  all_goals rfl

/-- What a client hands out does not change the clients. -/
theorem turnOutputs_turn : (s.turnOutputs env c outs).turn = s.turn := by
  have hone (s : Session) (o : TurnOutput) : (s.turnOutput env c o).turn = s.turn := by
    cases o with
    | toServer b => rfl
    | allocated relay =>
      simp only [turnOutput]
      split_ifs <;> rfl
    | data peer payload =>
      simp only [turnOutput]
      split_ifs
      exacts [rfl, rfl, deliver_turn s]
  induction outs generalizing s with
  | nil => rfl
  | cons o outs ih => exact (ih _).trans (hone s o)

/-- Requests to the TURN server. -/
theorem turnOutputs_quiet (h : ∀ o ∈ outs, ∃ b, o = .toServer b) :
    Quiet s (s.turnOutputs env c outs) := by
  induction outs generalizing s with
  | nil => exact .refl s
  | cons o outs ih =>
    obtain ⟨b, rfl⟩ := h o (by simp)
    exact Keeps.trans (.emit s _ rfl) (ih _ fun o ho => h o (by simp [ho]))

theorem turnCreatePermission_quiet (ip : Bytes) : Quiet s (s.turnCreatePermission env ip) := by
  unfold turnCreatePermission
  split
  · exact .refl s
  · rename_i c hc
    refine Keeps.after (turnOutputs_quiet env _ (TurnClient.createPermission_requests)) ?_
    exact .client s _ (Nat.le_succ _) (hc ▸ TurnClient.createPermission_carried)
      (hc ▸ TurnClient.createPermission_stays)
      (hc ▸ congrArg some (TurnClient.createPermission_backup))

theorem turnCreatePermission_turn (ip : Bytes) :
    (s.turnCreatePermission env ip).turn =
      s.turn.map fun k => (k.createPermission env.net (env.txnId s.draws) ip).1 := by
  unfold turnCreatePermission
  split
  · rename_i hc
    rw [hc]
    rfl
  · rename_i hc
    rw [turnOutputs_turn, hc]
    rfl

theorem turnBindChannel_quiet (ep : Endpoint) : Quiet s (s.turnBindChannel env ep) := by
  unfold turnBindChannel
  split
  · exact .refl s
  · rename_i c hc
    refine Keeps.after (turnOutputs_quiet env _ (TurnClient.bindChannel_requests)) ?_
    exact .client s _ (Nat.le_succ _) (hc ▸ TurnClient.bindChannel_carried)
      (hc ▸ TurnClient.bindChannel_stays)
      (hc ▸ congrArg some (TurnClient.bindChannel_backup))

theorem turnClose_works : Works Effect.isQuiet s (s.turnClose env) := by
  unfold turnClose
  split
  · exact .refl s
  · rename_i c hc
    refine Works.after (turnOutputs_quiet env _ (TurnClient.close_requests)).toWorks ?_
    exact .client s _ (Nat.le_succ _) (.idle _ (TurnClient.close_idle))

theorem turnBackupProbeClose_quiet : Quiet s (s.turnBackupProbeClose env) := by
  unfold turnBackupProbeClose
  split
  · exact .refl s
  · exact Keeps.after (turnOutputs_quiet env _ (TurnClient.close_requests))
      (.silent rfl (Nat.le_succ _))

theorem turnOnInbound_keepsCore : KeepsCore Effect.isRoutine s (s.turnOnInbound env bytes) := by
  unfold turnOnInbound
  split
  · exact .refl s
  · refine KeepsCore.trans ?_ (turnOutputs_delivers env _ _ _).toKeepsCore
    exact { KeepsCore.refl s with draws := Nat.le_add_right s.draws (_ + 1) }

theorem turnOnInbound_permissions :
    ∀ k ∈ (s.turnOnInbound env bytes).turn, ∃ k₀ ∈ s.turn, k₀.permissions = k.permissions := by
  unfold turnOnInbound
  split
  · exact fun k hk => ⟨k, hk, rfl⟩
  · rename_i c hc
    rw [turnOutputs_turn]
    intro k hk
    obtain rfl := some.inj hk
    exact ⟨c, hc, (TurnClient.onInbound_fixed).1.symm⟩

theorem turnOnInbound_backup :
    (s.turnOnInbound env bytes).turn.map (·.backup) = s.turn.map (·.backup) := by
  unfold turnOnInbound
  split
  · rfl
  · rename_i c hc
    rw [turnOutputs_turn, hc]
    exact congrArg some (TurnClient.onInbound_fixed).2.1

private theorem turnOutputs_posts (hb : c.backup = false) {relay : Endpoint}
    (h : .allocated relay ∈ outs) :
    .turnAllocated (relayCandidate env.net relay) ∈ (s.turnOutputs env c outs).queue := by
  induction outs generalizing s with
  | nil => cases h
  | cons o outs ih =>
    rcases mem_cons.mp h with rfl | h
    · refine (turnOutputs_delivers env _ c outs).queue ?_
      simp only [turnOutput, hb, Bool.false_eq_true, if_false]
      exact mem_cons_self
    · exact ih _ h

theorem turnOnInbound_posts (h : (s.turnOnInbound env bytes).turnAllocated = true) :
    s.turnAllocated = true ∨ (∃ c, .turnAllocated c ∈ (s.turnOnInbound env bytes).queue) ∨
      ∃ k ∈ (s.turnOnInbound env bytes).turn, k.backup = true := by
  unfold turnOnInbound turnAllocated at h ⊢
  split at h
  · exact .inl h
  · rename_i c hc
    simp only [hc] at h ⊢
    rw [turnOutputs_turn] at h
    simp only [turnOutputs_turn]
    cases hb : (c.onInbound env.net env.md5 (fun k => env.txnId (s.draws + k)) bytes).1.backup with
    | true => exact .inr (.inr ⟨_, rfl, hb⟩)
    | false =>
      rcases TurnClient.onInbound_allocates h with hold | ⟨relay, hr⟩
      · exact .inl hold
      · exact .inr (.inl ⟨_, turnOutputs_posts env _ hb hr⟩)

theorem turnBackupOnInbound_delivers : Delivers s (s.turnBackupOnInbound env bytes) := by
  unfold turnBackupOnInbound
  split
  · exact .refl s
  · exact Keeps.after (turnOutputs_delivers env _ _ _)
      (.silent rfl (Nat.le_add_right s.draws (_ + 1)))

theorem buildTurnClient_quiet (cfg : TurnConfig) (backup : Bool) :
    Quiet s (s.buildTurnClient env cfg backup).2 := by
  unfold buildTurnClient
  extract_lets ep stream r
  split_ifs
  exacts [.drawn s, .drawn s, ensureRemoteCid_quiet env s _, ensureRemoteCid_quiet env s _]

theorem buildTurnClient_new {cfg : TurnConfig} {backup : Bool}
    (h : (s.buildTurnClient env cfg backup).1 = some c) :
    c.allocated = false ∧ c.permissions = [] ∧ c.backup = backup := by
  unfold buildTurnClient at h
  extract_lets ep stream r at h
  have hnew {kind : CarrierKind} {cid : Cid}
      (h : (if cid = 0 then none else some { carrier := kind, serverCid := cid, cfg, backup }) =
        some c) : c.allocated = false ∧ c.permissions = [] ∧ c.backup = backup := by
    split_ifs at h
    obtain rfl := some.inj h
    exact ⟨rfl, rfl, rfl⟩
  split at h
  · exact hnew h
  · split at h
    exacts [hnew h, hnew h]

theorem dropTurn_works : Works Effect.isQuiet s (s.dropTurn env) :=
  (turnClose_works env s).trans (.client _ _ le_rfl (.none _))

theorem dropTurnBackupProbe_quiet : Quiet s (s.dropTurnBackupProbe env) :=
  (turnBackupProbeClose_quiet env s).trans (.silent rfl le_rfl)

theorem armTurnAllocateTimer_works : Works Effect.isQuiet s s.armTurnAllocateTimer := by
  unfold armTurnAllocateTimer
  split_ifs
  exacts [Keeps.arms rfl le_rfl trivial, .refl s]

theorem routeTo_quiet (tcp : Bool) (ep : Endpoint) : Quiet s (s.routeTo env tcp ep).2 := by
  unfold routeTo
  split_ifs
  exacts [ensureRemoteTcpCid_quiet env s ep, ensureRemoteCid_quiet env s ep]

theorem probeServer_quiet (tcp : Bool) (server : Endpoint) :
    Quiet s (s.probeServer env tcp server) := by
  unfold probeServer
  dsimp only
  refine (routeTo_quiet env s tcp server).trans ?_
  generalize (s.routeTo env tcp server).2 = t
  split_ifs
  · exact .refl _
  · exact Keeps.after (carrierSend_quiet _ rfl) (.silent rfl (Nat.le_succ _))

theorem probeServers_quiet (tcp : Bool) : Quiet s (s.probeServers env tcp) :=
  .foldl (fun s server => probeServer_quiet env s tcp server) _ s

theorem armGatherTimer_works : Works Effect.isQuiet s s.armGatherTimer := by
  unfold armGatherTimer
  split_ifs
  exacts [Keeps.arms rfl le_rfl trivial, .refl s]

theorem armGatherTimer_stays : turnStays s.turn s.armGatherTimer.turn = true := by
  unfold armGatherTimer
  split_ifs
  all_goals exact turnStays_refl

theorem armGatherFallback_works : Works Effect.isQuiet s s.armGatherFallback := by
  unfold armGatherFallback
  split_ifs
  exacts [Keeps.arms rfl le_rfl trivial, .refl s]

theorem armGatherFallback_stays : turnStays s.turn s.armGatherFallback.turn = true := by
  unfold armGatherFallback
  split_ifs
  all_goals exact turnStays_refl

theorem gatherTcpServerReflexive_quiet : Quiet s (s.gatherTcpServerReflexive env) := by
  unfold gatherTcpServerReflexive
  split_ifs
  exacts [.refl s, probeServers_quiet env s true]

theorem observeSrflxPort_quiet {port : ℕ} : Quiet s (s.observeSrflxPort port) := by
  unfold observeSrflxPort
  split_ifs
  · exact .refl s
  · split
    · exact .silent rfl le_rfl
    · split_ifs
      all_goals exact .silent rfl le_rfl

theorem armTurnBackupTimer_quiet : Quiet s s.armTurnBackupTimer := by
  unfold armTurnBackupTimer
  split_ifs
  exacts [.queues rfl le_rfl trivial, .refl s]

theorem armTurnBackups_quiet : Quiet s s.armTurnBackups := by
  unfold armTurnBackups
  dsimp only
  split_ifs
  · exact Keeps.after (armTurnBackupTimer_quiet _) (.silent rfl le_rfl)
  · exact .silent rfl le_rfl

theorem probeTurnBackup_quiet : Quiet s (s.probeTurnBackup env) := by
  unfold probeTurnBackup
  extract_lets idx s₁
  have h₁ : Quiet s s₁ := Keeps.after (armTurnBackupTimer_quiet _) (.silent rfl le_rfl)
  refine h₁.trans ?_
  clear_value s₁
  split
  · exact .refl _
  · rename_i cfg _
    refine (buildTurnClient_quiet env s₁ cfg true).trans ?_
    dsimp only
    generalize s₁.buildTurnClient env cfg true = r
    split
    · exact .silent rfl le_rfl
    · exact Keeps.after (turnOutputs_quiet env _ (TurnClient.allocate_requests))
        (.silent rfl (Nat.le_succ _))

theorem onTurnBackupTick_quiet : Quiet s (s.onTurnBackupTick env) := by
  unfold onTurnBackupTick
  split_ifs
  · exact .refl s
  · exact (dropTurnBackupProbe_quiet env s).trans (probeTurnBackup_quiet env _)

theorem unregisterMdns_quiet : Quiet s s.unregisterMdns := by
  unfold unregisterMdns
  split_ifs
  exacts [.silent rfl le_rfl, .refl s]

theorem releasePortmapMapping_quiet : Quiet s s.releasePortmapMapping := by
  unfold releasePortmapMapping
  split_ifs
  · cases s.portmapMapping with
    | none => exact .refl s
    | some m => exact .silent rfl le_rfl
  · exact .refl s

theorem sendKeepalive_quiet : Quiet s (s.sendKeepalive env) := by
  unfold sendKeepalive
  split_ifs
  · exact .refl s
  · exact (Keeps.drawn s).trans (carrierSend_quiet _ rfl)

theorem armKeepaliveTimer_quiet : Quiet s s.armKeepaliveTimer := by
  unfold armKeepaliveTimer
  split_ifs
  exacts [.queues rfl le_rfl trivial, .refl s]

theorem armPmtuTimer_quiet : Quiet s s.armPmtuTimer := by
  unfold armPmtuTimer
  split_ifs
  exacts [.queues rfl le_rfl trivial, .refl s]

theorem armCheckTimer_quiet : Quiet s s.armCheckTimer := by
  unfold armCheckTimer
  split_ifs
  exacts [.queues rfl le_rfl trivial, .refl s]

theorem foldl_post {α : Type} {p : α → Prop} [DecidablePred p] {f : α → Task} {as : List α} :
    as.foldl (fun s a => if p a then s.post (f a) else s) s =
      { s with queue := ((as.filter (fun a => decide (p a))).map f).reverse ++ s.queue } := by
  induction as generalizing s with
  | nil => rfl
  | cons a as ih =>
    rw [foldl_cons, ih]
    by_cases ha : p a
    · simp [ha, post]
    · simp [ha]

def nameQueries (cs : List Candidate) : List Task :=
  ((cs.zipIdx.filter fun x => decide (x.1.type = .hostMdns ∧ x.1.hostname ≠ [] ∧
    Mdns.isMdnsLocalName x.1.hostname = true)).map fun x => .mdnsResolve x.2 x.1.hostname).reverse

/-- Looking up names only queues work. -/
theorem resolveRemoteMdnsCandidates_eq : s.resolveRemoteMdnsCandidates =
    { s with queue := (if s.hasMdns then nameQueries s.remoteCandidates else []) ++ s.queue } := by
  unfold resolveRemoteMdnsCandidates
  split_ifs with hn hm hm
  · simp [hm] at hn
  · rfl
  · exact foldl_post s
  · simp [hm] at hn

theorem publishAnswer_core : s.publishAnswer.core = s.core := by
  unfold publishAnswer
  split_ifs <;> rfl

theorem sampleRtt_quiet {p : CheckPair} : Quiet s (s.sampleRtt env p) := by
  unfold sampleRtt
  split_ifs
  exacts [.refl s, .silent rfl (Nat.le_succ _)]

theorem onAppData_delivers {fromTcp : Bool} {data : Bytes} :
    Delivers s (s.onAppData fromTcp data) := by
  unfold onAppData
  split_ifs
  exacts [.refl s, deliverInOrder_delivers s, .emit s _ rfl]

theorem nomineeCid_quiet (p : CheckPair) : Quiet s (s.nomineeCid env p).2 := by
  unfold nomineeCid
  dsimp only
  split_ifs
  exacts [ensureRemoteTcpCid_quiet env s _, relayCidForEndpoint_quiet s _,
    ensureRemoteCid_quiet env s _]

end Session

end LinkIce
