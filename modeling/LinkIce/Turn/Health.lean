import LinkIce.Stun.AddressText
import LinkIce.Turn.Channels

/-! The health flag of a TURN client against the fate of its Refresh requests. -/
namespace LinkIce
open Stun

def turnRefreshResponse : ℕ := 0x0104

/-- The error class of Refresh. The source has no constant for it. -/
def turnRefreshError : ℕ := 0x0114

namespace TurnClient

def refresh (c : TurnClient) (txn : TransactionId) : List TurnOutput :=
  c.toServer (c.addCredentials (StunBuilder.addLifetime ⟨turnRefreshRequest, txn, []⟩ c.lifetime))

def allocates (net : Inet) (bytes : Bytes) : Bool :=
  !isChannelData bytes && (parseStun net bytes).any fun m =>
    decide (m.msgType = turnAllocateResponse) && m.xorRelayed.isSome

/-- What the server says to one of the Refresh requests in `sent`. -/
def refreshAnswer (net : Inet) (sent : List TransactionId) (bytes : Bytes) : Option Bool :=
  if isChannelData bytes then none
  else (parseStun net bytes).bind fun m =>
    if m.txnId ∉ sent then none
    else if m.msgType = turnRefreshResponse then some true
    else if m.msgType = turnRefreshError then some false
    else none

end TurnClient

/-- Everything that can happen to a TURN client: its methods, a message from the server, the
expiry of its timer. -/
inductive ClientEvent
  | allocate (txn : TransactionId)
  | message (txn : TransactionId) (bytes : Bytes)
  | refreshTick (txn : TransactionId)
  | refresh (txn : TransactionId)
  | createPermission (txn : TransactionId) (ip : Bytes)
  | channel (call : TurnClient.ChannelCall)
  | close (txn : TransactionId)

/-- A client with its refresh timer. The last three fields are not in the code: the Refresh
requests sent, those without an answer since the last tick, and the fate of the last one
whose fate is known. -/
structure ClientRun where
  client : TurnClient
  timer : Bool := false
  sent : List TransactionId := []
  waiting : List TransactionId := []
  alive : Option Bool := none

namespace ClientRun

variable {net : Inet} {md5 : Bytes → Bytes} {r : ClientRun} {e : ClientEvent} {txn : TransactionId}
  {bytes : Bytes}

def refreshRequest : TurnOutput → Option TransactionId
  | .toServer b => if b.msgType = turnRefreshRequest then some b.txnId else none
  | _ => none

def sends (outs : List TurnOutput) (r : ClientRun) : ClientRun :=
  let txns := outs.filterMap refreshRequest
  { r with sent := txns ++ r.sent, waiting := txns ++ r.waiting }

/-- A message is dispatched. A completed allocation calls `schedule_refresh`. -/
def message (net : Inet) (md5 : Bytes → Bytes) (txn : TransactionId) (bytes : Bytes)
    (r : ClientRun) : ClientRun :=
  let answer := TurnClient.refreshAnswer net r.sent bytes
  let c := r.client.dispatchInboundMessage net md5 txn bytes
  sends c.2 { r with
    client := c.1
    timer := r.timer || TurnClient.allocates net bytes
    waiting := if answer.isSome then
      r.waiting.filter fun t => (parseStun net bytes).all (·.txnId ≠ t) else r.waiting
    alive := answer.or r.alive }

/-- The timer of `schedule_refresh` fires: a Refresh goes out and the timer is armed again,
as long as there is an allocation. -/
def refreshTick (txn : TransactionId) (r : ClientRun) : ClientRun :=
  if !r.timer then r
  else
    let r := { r with
      alive := if r.waiting = [] then r.alive else some false
      waiting := [] }
    if r.client.allocated then r.sends (r.client.refresh txn) else { r with timer := false }

def step (net : Inet) (md5 : Bytes → Bytes) (r : ClientRun) : ClientEvent → ClientRun
  | .allocate txn => r.sends (r.client.allocate txn)
  | .message txn bytes => r.message net md5 txn bytes
  | .refreshTick txn => r.refreshTick txn
  | .refresh txn => r.sends (r.client.refresh txn)
  | .createPermission txn ip =>
    let c := r.client.createPermission net txn ip
    { r with client := c.1 }.sends c.2
  | .channel call => { r with client := r.client.channelCall net call }
  | .close txn =>
    let c := r.client.close txn
    { r with client := c.1, timer := false }.sends c.2

def start (carrier : CarrierKind) (serverCid : Cid) (cfg : TurnConfig) (backup : Bool) :
    ClientRun :=
  { client := { carrier, serverCid, cfg, backup } }

/-- The client is unhealthy from the failure of a Refresh to the next success, and healthy
after a success for as long as it is allocated. -/
structure HealthReflects (r : ClientRun) : Prop where
  dead : r.alive = some false → r.client.isHealthy = false
  alive : r.alive = some true → r.client.allocated = true → r.client.isHealthy = true

/-- No Refresh of an allocation is rejected or still unanswered at the next tick, and no
allocation completes after such a failure. -/
def Refreshed (net : Inet) (r : ClientRun) : ClientEvent → Prop
  | .message _ bytes =>
    (TurnClient.refreshAnswer net r.sent bytes = some false → r.client.allocated = false) ∧
      (TurnClient.allocates net bytes = true → r.alive ≠ some false)
  | .refreshTick _ => r.timer = true → r.client.allocated = true → r.waiting = []
  | _ => True

/-! ### The flag never moves -/

structure Sound (r : ClientRun) : Prop where
  flag : r.client.refreshHealthy = true
  dead : r.alive = some false → r.client.allocated = false

theorem healthReflects_iff (h : r.client.refreshHealthy = true) : HealthReflects r ↔ Sound r := by
  have hh : r.client.isHealthy = r.client.allocated := by
    rw [TurnClient.isHealthy, h, Bool.and_true]
  constructor
  · intro hr
    exact ⟨h, fun hd => hh ▸ hr.dead hd⟩
  · intro hs
    exact ⟨fun hd => hh.trans (hs.dead hd), fun _ ha => hh.trans ha⟩

theorem step_flag (net : Inet) (md5 : Bytes → Bytes) (r : ClientRun) (e : ClientEvent) :
    (r.step net md5 e).client.refreshHealthy = r.client.refreshHealthy := by
  cases e with
  | allocate | refresh => rfl
  | message txn bytes =>
    obtain ⟨_, _, _, _, _, _, h⟩ :=
      TurnClient.dispatchInboundMessage_client net md5 r.client txn bytes
    change (r.client.dispatchInboundMessage net md5 txn bytes).1.refreshHealthy = _
    rw [h]
  | refreshTick txn =>
    simp only [step, refreshTick]
    split_ifs <;> rfl
  | createPermission txn ip =>
    simp only [step, TurnClient.createPermission]
    split_ifs <;> rfl
  | channel call =>
    cases call with
    | sendIndication => rfl
    | bindChannel txn peer =>
      simp only [step, TurnClient.channelCall, TurnClient.bindChannel]
      split_ifs <;> rfl
  | close txn =>
    simp only [step, TurnClient.close]
    split_ifs <;> rfl

/-- No event writes `refresh_healthy_`. -/
theorem run_flag (net : Inet) (md5 : Bytes → Bytes) (r : ClientRun) (es : List ClientEvent) :
    (es.foldl (step net md5) r).client.refreshHealthy = r.client.refreshHealthy := by
  induction es generalizing r with
  | nil => rfl
  | cons e es ih => exact (ih (r.step net md5 e)).trans (step_flag net md5 r e)

/-! ### Allocation and fate after a step -/

theorem dispatchInboundMessage_allocated {c : TurnClient} :
    (c.dispatchInboundMessage net md5 txn bytes).1.allocated =
      (c.allocated || TurnClient.allocates net bytes) := by
  unfold TurnClient.dispatchInboundMessage TurnClient.allocates
  by_cases hcd : isChannelData bytes = true
  · simp [hcd]
  · rw [if_neg hcd]
    cases parseStun net bytes with
    | none => simp
    | some m =>
      dsimp only
      by_cases herr : m.msgType = turnAllocateError
      · have hne : m.msgType ≠ turnAllocateResponse := by
          rw [herr]
          decide
        rw [if_pos herr]
        simp only [TurnClient.handleAllocateError, TurnClient.computeAuthKey]
        split_ifs <;> simp [hne]
      · rw [if_neg herr]
        by_cases hres : m.msgType = turnAllocateResponse
        · rw [if_pos hres, TurnClient.handleAllocateResponse]
          cases hr : m.xorRelayed <;> simp [hr, hcd, hres]
        · rw [if_neg hres]
          split_ifs <;> simp [hres]

private theorem not_allocates_of_answer {sent : List TransactionId} {b : Bool}
    (h : TurnClient.refreshAnswer net sent bytes = some b) :
    TurnClient.allocates net bytes = false := by
  unfold TurnClient.refreshAnswer at h
  unfold TurnClient.allocates
  split_ifs at h
  obtain ⟨m, hm, hans⟩ := Option.bind_eq_some_iff.mp h
  have hne : m.msgType ≠ turnAllocateResponse := by
    split_ifs at hans with _ hres herr
    · rw [hres]
      decide
    · rw [herr]
      decide
  simp [hm, hne]

theorem sound_message_iff (h : Sound r) :
    Sound (r.message net md5 txn bytes) ↔ Refreshed net r (.message txn bytes) := by
  have hflag : (r.message net md5 txn bytes).client.refreshHealthy = true :=
    (step_flag net md5 r (.message txn bytes)).trans h.flag
  have halloc : (r.message net md5 txn bytes).client.allocated =
      (r.client.allocated || TurnClient.allocates net bytes) :=
    dispatchInboundMessage_allocated
  have halive : (r.message net md5 txn bytes).alive =
      (TurnClient.refreshAnswer net r.sent bytes).or r.alive := rfl
  have hsound : Sound (r.message net md5 txn bytes) ↔
      ((TurnClient.refreshAnswer net r.sent bytes).or r.alive = some false →
        (r.client.allocated || TurnClient.allocates net bytes) = false) := by
    rw [← halloc, ← halive]
    exact ⟨fun hs => hs.dead, fun hd => ⟨hflag, hd⟩⟩
  rw [hsound]
  cases hans : TurnClient.refreshAnswer net r.sent bytes with
  | some b =>
    have hno := not_allocates_of_answer hans
    simp [Refreshed, hans, hno]
  | none =>
    have hdead := h.dead
    simp only [Option.none_or, Bool.or_eq_false_iff, Refreshed, hans, reduceCtorEq,
      false_implies, true_and]
    constructor
    · intro hd hyes hfalse
      have hno := (hd hfalse).2
      rw [hyes] at hno
      cases hno
    · intro hd hfalse
      exact ⟨hdead hfalse, Bool.eq_false_iff.mpr fun hyes => hd hyes hfalse⟩

theorem sound_refreshTick_iff (h : Sound r) :
    Sound (r.refreshTick txn) ↔ Refreshed net r (.refreshTick txn) := by
  have hdead := h.dead
  unfold refreshTick Refreshed
  by_cases ht : r.timer = true
  · have ht' : ¬ (!r.timer) = true := by simp [ht]
    rw [if_neg ht']
    by_cases ha : r.client.allocated = true
    · dsimp only
      rw [if_pos ha]
      by_cases hw : r.waiting = []
      · rw [if_pos hw]
        exact ⟨fun _ _ _ => hw, fun _ => ⟨h.flag, hdead⟩⟩
      · rw [if_neg hw]
        constructor
        · intro hs
          have hfalse : r.client.allocated = false := hs.dead rfl
          simp [ha] at hfalse
        · intro hr
          exact absurd (hr ht ha) hw
    · dsimp only
      rw [if_neg ha]
      exact ⟨fun _ _ hyes => absurd hyes ha, fun _ => ⟨h.flag, fun _ => Bool.eq_false_iff.mpr ha⟩⟩
  · have ht' : (!r.timer) = true := by simp [ht]
    rw [if_pos ht']
    exact ⟨fun _ hyes => absurd hyes ht, fun _ => h⟩

theorem sound_step_iff (h : Sound r) : Sound (r.step net md5 e) ↔ Refreshed net r e := by
  have hflag := (step_flag net md5 r e).trans h.flag
  cases e with
  | allocate | refresh => exact ⟨fun _ => trivial, fun _ => ⟨h.flag, h.dead⟩⟩
  | message txn bytes => exact sound_message_iff h
  | refreshTick txn => exact sound_refreshTick_iff h
  | createPermission txn ip =>
    refine ⟨fun _ => trivial, fun _ => ⟨hflag, fun hd => ?_⟩⟩
    have ha := h.dead hd
    simp only [step, TurnClient.createPermission]
    split_ifs <;> exact ha
  | channel call =>
    refine ⟨fun _ => trivial, fun _ => ⟨hflag, fun hd => ?_⟩⟩
    have ha := h.dead hd
    cases call with
    | sendIndication => exact ha
    | bindChannel txn peer =>
      simp only [step, TurnClient.channelCall, TurnClient.bindChannel]
      split_ifs <;> exact ha
  | close txn =>
    refine ⟨fun _ => trivial, fun _ => ⟨hflag, fun hd => ?_⟩⟩
    have ha := h.dead hd
    simp only [step, TurnClient.close]
    split_ifs
    · exact ha
    · rfl

/-- In every run of a client the health flag reflects the fate of its Refresh requests if and
only if none of them fails. -/
theorem health_reflects_iff (net : Inet) (md5 : Bytes → Bytes) (carrier : CarrierKind)
    (serverCid : Cid) (cfg : TurnConfig) (backup : Bool) (es : List ClientEvent) :
    (∀ fs, fs <+: es →
      HealthReflects (fs.foldl (step net md5) (start carrier serverCid cfg backup))) ↔
    Along (step net md5) (Refreshed net) (start carrier serverCid cfg backup) es := by
  have hflag (fs : List ClientEvent) :
      (fs.foldl (step net md5) (start carrier serverCid cfg backup)).client.refreshHealthy = true :=
    run_flag net md5 _ fs
  have hstart : Sound (start carrier serverCid cfg backup) := ⟨rfl, fun h => by cases h⟩
  rw [← forall_prefix_iff_along (fun _ _ hs => sound_step_iff hs) hstart]
  exact forall₂_congr fun fs _ => healthReflects_iff (hflag fs)

def rejectedRefresh : List ClientEvent :=
  let txn := Block.zero 12
  let relayed : Attr := .tlv .xorRelayedAddress
    (encodeXorAddr .posix (Inet.dotted 192 0 2 1) 49152 txn)
  [.message txn (StunBuilder.build zeroHmac ⟨turnAllocateResponse, txn, [relayed]⟩),
    .refreshTick txn,
    .message txn (StunBuilder.build zeroHmac ⟨turnRefreshError, txn, []⟩)]

/-- The client takes no notice of the rejection. -/
theorem rejected_refresh_stays_healthy : ¬ HealthReflects
    (rejectedRefresh.foldl (step .posix id)
      (start .udp 1 { server := Inet.dotted 192 0 2 1 } false)) := by
  intro h
  have hdead : (rejectedRefresh.foldl (step .posix id)
      (start .udp 1 { server := Inet.dotted 192 0 2 1 } false)).alive = some false := by
    decide +kernel
  have hhealthy : (rejectedRefresh.foldl (step .posix id)
      (start .udp 1 { server := Inet.dotted 192 0 2 1 } false)).client.isHealthy = true := by
    decide +kernel
  have hfalse := h.dead hdead
  rw [hhealthy] at hfalse
  cases hfalse

end ClientRun

end LinkIce
