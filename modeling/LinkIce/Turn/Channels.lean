import LinkIce.Lib.Runs
import LinkIce.Turn.Streams

/-! The channel table of a UDP allocation, over any sequence of binds and sends. -/
namespace LinkIce
open Stun List

/-- `encode_channel_data`: a four-byte header, then the payload padded to a multiple of four. -/
def encodeChannelData (channel : ℕ) (payload : Bytes) : Bytes :=
  be16 channel ++ be16 payload.length ++ payload ++
    List.replicate ((4 - payload.length % 4) % 4) 0

theorem length_encodeXorAddr {net : Inet} {ip : Bytes} {port : ℕ} {txn : TransactionId} :
    (encodeXorAddr net ip port txn).length =
      if (net.pton4 ip).isSome then 8 else if (net.pton6 ip).isSome then 20 else 1 := by
  have hkey : (xorKey txn).length = 16 := by simp [xorKey, txn.2]
  unfold encodeXorAddr
  cases net.pton4 ip with
  | some a => simp [xorBytes, a.2, hkey]
  | none =>
    cases net.pton6 ip with
    | some a => simp [xorBytes, a.2, hkey]
    | none => rfl

namespace TurnClient

/-- `send_indication`. A channel number of zero reads as no channel. -/
def sendIndication (H : Hmac) (net : Inet) (c : TurnClient) (txn : TransactionId)
    (peer : Endpoint) (data : Bytes) : List Bytes :=
  let channel := (c.peerToChannel.lookup peer).getD 0
  if channel ≠ 0 then c.sendToServer (encodeChannelData channel data)
  else c.sendToServer (StunBuilder.build H (StunBuilder.addData
    (StunBuilder.addXorPeerAddress net ⟨turnSendIndication, txn, []⟩ peer.ip peer.port) data))

inductive ChannelCall
  | bindChannel (txn : TransactionId) (peer : Endpoint)
  | sendIndication (txn : TransactionId) (peer : Endpoint) (data : Bytes)

def channelCall (net : Inet) (c : TurnClient) : ChannelCall → TurnClient
  | .bindChannel txn peer => (c.bindChannel net txn peer).1
  | .sendIndication _ _ _ => c

structure FreshTable (c : TurnClient) : Prop where
  udp : c.cfg.requestedTransport ≠ requestedTransportTcp
  peers : c.peerToChannel = ∅
  channels : c.channelToPeer = ∅
  next : c.nextChannel = turnChannelNumberMin

/-- The two maps are inverse to each other, and every number is a channel number. -/
structure TableBijective (c : TurnClient) : Prop where
  inverse : ∀ peer channel, c.peerToChannel.lookup peer = some channel ↔
    c.channelToPeer.lookup channel = some peer
  range : ∀ peer channel, c.peerToChannel.lookup peer = some channel →
    turnChannelNumberMin ≤ channel ∧ channel ≤ turnChannelNumberMax

/-- ChannelData on a channel that `b` had bound to a peer is attributed to that peer by `c`. -/
def Attributes (b c : TurnClient) : Prop :=
  ∀ peer channel payload raw, b.peerToChannel.lookup peer = some channel →
    parseChannelData raw = some (channel, payload) → c.handleChannelData raw = [.data peer payload]

/-- A peer without a channel asks for one only while the counter has not wrapped. -/
def BeforeWrap (c : TurnClient) : ChannelCall → Prop
  | .bindChannel _ peer => peer ∈ c.peerToChannel ∨ turnChannelNumberMin ≤ c.nextChannel
  | .sendIndication _ _ _ => True

/-- The numbers handed out lie below the counter until it wraps. -/
structure TableInv (c : TurnClient) : Prop extends TableBijective c where
  udp : c.cfg.requestedTransport ≠ requestedTransportTcp
  width : c.nextChannel < 65536
  below : turnChannelNumberMin ≤ c.nextChannel →
    ∀ peer channel, c.peerToChannel.lookup peer = some channel → channel < c.nextChannel

variable {net : Inet} {c b : TurnClient} {txn : TransactionId} {peer : Endpoint} {channel n : ℕ}
  {e : ChannelCall} {ip : Bytes}

theorem FreshTable.inv (h : FreshTable c) : TableInv c where
  inverse := by simp [h.peers, h.channels]
  range := by simp [h.peers]
  udp := h.udp
  width := by simp [h.next, turnChannelNumberMin]
  below := by simp [h.peers]

/-! ### What a bind does -/

theorem bindChannel_of_bound (h : peer ∈ c.peerToChannel) : (c.bindChannel net txn peer).1 = c := by
  unfold bindChannel
  rw [if_pos (AList.lookup_isSome.mpr h)]
  split_ifs <;> rfl

theorem bindChannel_exhausted (hu : c.cfg.requestedTransport ≠ requestedTransportTcp)
    (h : peer ∉ c.peerToChannel) (hx : turnChannelNumberMax < c.nextChannel) :
    (c.bindChannel net txn peer).1 = { c with nextChannel := (c.nextChannel + 1) % 65536 } := by
  unfold bindChannel
  rw [if_neg hu, if_neg (by rwa [AList.lookup_isSome])]
  dsimp only
  rw [if_pos hx]

theorem bindChannel_assigns (hu : c.cfg.requestedTransport ≠ requestedTransportTcp)
    (h : peer ∉ c.peerToChannel) (hx : c.nextChannel ≤ turnChannelNumberMax) :
    (c.bindChannel net txn peer).1 = { c with
      nextChannel := (c.nextChannel + 1) % 65536
      peerToChannel := c.peerToChannel.insert peer c.nextChannel
      channelToPeer := c.channelToPeer.insert c.nextChannel peer
      permissions := c.permissions.insert peer.ip } := by
  unfold bindChannel
  rw [if_neg hu, if_neg (by rwa [AList.lookup_isSome])]
  dsimp only
  rw [if_neg (by omega)]

theorem bindChannel_out_of_range (hu : c.cfg.requestedTransport ≠ requestedTransportTcp)
    (h : peer ∉ c.peerToChannel) (hx : c.nextChannel < turnChannelNumberMin) :
    ¬ TableBijective (c.bindChannel net txn peer).1 := by
  intro hb
  have hmax : c.nextChannel ≤ turnChannelNumberMax := by
    unfold turnChannelNumberMin at hx
    unfold turnChannelNumberMax
    omega
  rw [bindChannel_assigns hu h hmax] at hb
  have hr := (hb.range peer c.nextChannel (AList.lookup_insert _)).1
  omega

/-! ### One call, and a run of calls -/

theorem TableInv.exhausted (h : TableInv c) (hx : turnChannelNumberMax < c.nextChannel) :
    TableInv { c with nextChannel := (c.nextChannel + 1) % 65536 } where
  inverse := h.inverse
  range := h.range
  udp := h.udp
  width := Nat.mod_lt _ (by omega)
  below := by
    intro hmin peer channel hl
    have hr := (h.range peer channel hl).2
    have hw := h.width
    dsimp only at hmin ⊢
    unfold turnChannelNumberMin at hmin
    -- the counter is at least the minimum only if this step did not wrap it
    by_cases hlast : c.nextChannel + 1 = 65536
    · rw [hlast] at hmin
      omega
    · rw [Nat.mod_eq_of_lt (by omega)]
      omega

theorem TableInv.unassigned (h : TableInv c) (hmin : turnChannelNumberMin ≤ c.nextChannel) :
    c.channelToPeer.lookup c.nextChannel = none := by
  cases hl : c.channelToPeer.lookup c.nextChannel with
  | none => rfl
  | some p =>
    have hlt := h.below hmin p c.nextChannel ((h.inverse p c.nextChannel).mpr hl)
    omega

theorem TableInv.assigned (h : TableInv c) (hp : peer ∉ c.peerToChannel)
    (hmin : turnChannelNumberMin ≤ c.nextChannel) (hmax : c.nextChannel ≤ turnChannelNumberMax) :
    TableInv { c with
      nextChannel := (c.nextChannel + 1) % 65536
      peerToChannel := c.peerToChannel.insert peer c.nextChannel
      channelToPeer := c.channelToPeer.insert c.nextChannel peer
      permissions := c.permissions.insert peer.ip } where
  inverse := by
    intro q channel
    have hfresh := h.unassigned hmin
    have hnone : c.peerToChannel.lookup peer = none := AList.lookup_eq_none.mpr hp
    have hi := h.inverse
    by_cases hq : q = peer <;> by_cases hc : channel = c.nextChannel
    · subst hq hc
      simp
    · subst hq
      rw [AList.lookup_insert, AList.lookup_insert_ne hc, ← hi, hnone]
      simp [Ne.symm hc]
    · subst hc
      rw [AList.lookup_insert, AList.lookup_insert_ne hq, hi, hfresh]
      simp [Ne.symm hq]
    · rw [AList.lookup_insert_ne hq, AList.lookup_insert_ne hc]
      exact hi q channel
  range := by
    intro q channel hl
    by_cases hq : q = peer
    · subst hq
      rw [AList.lookup_insert, Option.some.injEq] at hl
      omega
    · rw [AList.lookup_insert_ne hq] at hl
      exact h.range q channel hl
  udp := h.udp
  width := Nat.mod_lt _ (by omega)
  below := by
    intro _ q channel hl
    have hnext : (c.nextChannel + 1) % 65536 = c.nextChannel + 1 := by
      unfold turnChannelNumberMax at hmax
      exact Nat.mod_eq_of_lt (by omega)
    dsimp only
    rw [hnext]
    by_cases hq : q = peer
    · subst hq
      rw [AList.lookup_insert, Option.some.injEq] at hl
      omega
    · rw [AList.lookup_insert_ne hq] at hl
      have hlt := h.below hmin q channel hl
      omega

theorem TableInv.bindChannel (h : TableInv c)
    (hp : peer ∈ c.peerToChannel ∨ turnChannelNumberMin ≤ c.nextChannel) :
    TableInv (c.bindChannel net txn peer).1 := by
  by_cases hb : peer ∈ c.peerToChannel
  · rwa [bindChannel_of_bound hb]
  · have hmin := hp.resolve_left hb
    by_cases hx : turnChannelNumberMax < c.nextChannel
    · rw [bindChannel_exhausted h.udp hb hx]
      exact h.exhausted hx
    · rw [not_lt] at hx
      rw [bindChannel_assigns h.udp hb hx]
      exact h.assigned hb hmin hx

theorem TableInv.call (h : TableInv c) (he : BeforeWrap c e) : TableInv (c.channelCall net e) := by
  cases e with
  | bindChannel txn peer => exact h.bindChannel he
  | sendIndication => exact h

theorem channelCall_cfg (e : ChannelCall) : (c.channelCall net e).cfg = c.cfg := by
  cases e with
  | sendIndication => rfl
  | bindChannel txn peer =>
    simp only [channelCall, TurnClient.bindChannel]
    split_ifs <;> rfl

private theorem channelCall_keeps (hl : c.peerToChannel.lookup peer = some channel) :
    (c.channelCall net e).peerToChannel.lookup peer = some channel := by
  cases e with
  | sendIndication => exact hl
  | bindChannel txn q =>
    simp only [channelCall, TurnClient.bindChannel]
    split_ifs with _ hq
    · exact hl
    · exact hl
    · exact hl
    · have hne : peer ≠ q := by
        rintro rfl
        simp [hl] at hq
      dsimp only
      rwa [AList.lookup_insert_ne hne]

theorem channelCalls_keep {es : List ChannelCall}
    (hl : c.peerToChannel.lookup peer = some channel) :
    (es.foldl (channelCall net) c).peerToChannel.lookup peer = some channel := by
  induction es generalizing c with
  | nil => exact hl
  | cons e es ih => exact ih (channelCall_keeps hl)

theorem TableBijective.attributes (h : TableBijective c)
    (hk : ∀ peer channel, b.peerToChannel.lookup peer = some channel →
      c.peerToChannel.lookup peer = some channel) : Attributes b c := by
  intro peer channel payload raw hb hraw
  have hc := (h.inverse peer channel).mp (hk peer channel hb)
  simp only [handleChannelData, hraw, hc]

theorem channelCalls_cfg (net : Inet) (c : TurnClient) (es : List ChannelCall) :
    (es.foldl (channelCall net) c).cfg = c.cfg := by
  induction es generalizing c with
  | nil => rfl
  | cons e es ih => exact (ih (c.channelCall net e)).trans (channelCall_cfg e)

/-- The channel table of a UDP allocation stays a bijection into the channel numbers, and
channel data is attributed to the peer its channel was bound to, in exactly those runs in
which no peer without a channel asks for one after the counter wrapped. -/
theorem channel_table_bijective_iff (net : Inet) (c : TurnClient) (hc : FreshTable c)
    (es : List ChannelCall) :
    (∀ fs gs, fs ++ gs <+: es →
      TableBijective ((fs ++ gs).foldl (channelCall net) c) ∧
      Attributes (fs.foldl (channelCall net) c) ((fs ++ gs).foldl (channelCall net) c)) ↔
    Along (channelCall net) BeforeWrap c es := by
  constructor
  · intro h
    rw [along_iff_each_step]
    intro fs e hp
    cases e with
    | sendIndication => trivial
    | bindChannel txn peer =>
      have hb := (h fs [.bindChannel txn peer] hp).1
      rw [foldl_append] at hb
      have hu := hc.udp
      rw [← channelCalls_cfg net c fs] at hu
      by_contra hw
      obtain ⟨hnew, hlow⟩ := not_or.mp hw
      exact bindChannel_out_of_range hu hnew (by omega) hb
  · intro h fs gs hp
    have hinv : TableInv ((fs ++ gs).foldl (channelCall net) c) :=
      (h.restrict hp).invariant (fun _ _ he hs => hs.call he) hc.inv
    refine ⟨hinv.toTableBijective, hinv.attributes fun peer channel hl => ?_⟩
    rw [foldl_append]
    exact channelCalls_keep hl

def newUdpClient : TurnClient :=
  { carrier := .udp, serverCid := 1, cfg := { server := [0x61] }, backup := false }

theorem newUdpClient_fresh : FreshTable newUdpClient := ⟨by decide, rfl, rfl, rfl⟩

/-- Two peers bind a channel each, with a datagram in between. -/
theorem two_peers_share_the_table : ∃ (net : Inet) (txn : TransactionId), ∀ fs gs,
    fs ++ gs <+: [.bindChannel txn ⟨[0x31], 1⟩, .sendIndication txn ⟨[0x31], 1⟩ [7],
      .bindChannel txn ⟨[0x31], 2⟩] →
    TableBijective ((fs ++ gs).foldl (channelCall net) newUdpClient) ∧
      Attributes (fs.foldl (channelCall net) newUdpClient)
        ((fs ++ gs).foldl (channelCall net) newUdpClient) := by
  let net : Inet := ⟨fun _ => [], fun _ => [], fun _ => none, fun _ => none⟩
  refine ⟨net, Block.zero 12, (channel_table_bijective_iff net newUdpClient newUdpClient_fresh
    _).mpr ⟨.inr le_rfl, trivial, .inr ?_, trivial⟩⟩
  decide

/-- One bind for each of the first `n` ports of an address. -/
def bindPorts (txn : TransactionId) (ip : Bytes) (n : ℕ) : List ChannelCall :=
  (List.range n).map fun port => .bindChannel txn ⟨ip, port⟩

theorem bindPorts_succ :
    bindPorts txn ip (n + 1) = bindPorts txn ip n ++ [.bindChannel txn ⟨ip, n⟩] := by
  simp [bindPorts, range_succ]

private theorem bindChannel_other {p : Endpoint} (hne : p ≠ peer) (hp : p ∉ c.peerToChannel) :
    p ∉ (c.bindChannel net txn peer).1.peerToChannel := by
  unfold TurnClient.bindChannel
  split_ifs
  · exact hp
  · exact hp
  · dsimp only
    split_ifs
    · exact hp
    · rw [AList.mem_insert]
      simp [hne, hp]

private theorem bindPorts_next (hc : FreshTable c) :
    ((bindPorts txn ip n).foldl (channelCall net) c).nextChannel =
        (turnChannelNumberMin + n) % 65536 ∧
      ∀ port, n ≤ port →
        (⟨ip, port⟩ : Endpoint) ∉
          ((bindPorts txn ip n).foldl (channelCall net) c).peerToChannel := by
  induction n with
  | zero => simp [bindPorts, hc.next, hc.peers, turnChannelNumberMin]
  | succ n ih =>
    obtain ⟨hnext, hnew⟩ := ih
    have hu := hc.udp
    rw [← channelCalls_cfg net c (bindPorts txn ip n)] at hu
    rw [bindPorts_succ, foldl_append]
    generalize (bindPorts txn ip n).foldl (channelCall net) c = d at hnext hnew hu ⊢
    have hstep : (d.bindChannel net txn ⟨ip, n⟩).1.nextChannel = (d.nextChannel + 1) % 65536 := by
      by_cases hx : turnChannelNumberMax < d.nextChannel
      · rw [bindChannel_exhausted hu (hnew n le_rfl) hx]
      · rw [bindChannel_assigns hu (hnew n le_rfl) (by omega)]
    refine ⟨?_, fun port hport => bindChannel_other (by simp; omega) (hnew port (by omega))⟩
    change (d.bindChannel net txn ⟨ip, n⟩).1.nextChannel = _
    rw [hstep, hnext]
    omega

private theorem bindPorts_wraps (hc : FreshTable c)
    (hn : (turnChannelNumberMin + n) % 65536 < turnChannelNumberMin) :
    ¬ TableBijective ((bindPorts txn ip (n + 1)).foldl (channelCall net) c) := by
  obtain ⟨hnext, hnew⟩ := bindPorts_next hc
  have hu := hc.udp
  rw [← channelCalls_cfg net c (bindPorts txn ip n)] at hu
  rw [bindPorts_succ, foldl_append]
  exact bindChannel_out_of_range hu (hnew n le_rfl) (by rwa [hnext])

/-- With 49153 peers, all of them ports of one host, the last bind gets channel number 0. -/
theorem channel_counter_wraps : ¬ ∃ net : Inet, ∃ txn : TransactionId, ∀ fs gs,
    fs ++ gs <+: bindPorts txn [0x31] 49153 →
      TableBijective ((fs ++ gs).foldl (channelCall net) newUdpClient) ∧
      Attributes (fs.foldl (channelCall net) newUdpClient)
        ((fs ++ gs).foldl (channelCall net) newUdpClient) := by
  rintro ⟨net, txn, h⟩
  have hb := (h (bindPorts txn [0x31] 49153) [] (by rw [append_nil])).1
  rw [append_nil] at hb
  have hw : (turnChannelNumberMin + 49152) % 65536 < turnChannelNumberMin := by
    unfold turnChannelNumberMin
    omega
  exact bindPorts_wraps newUdpClient_fresh hw hb

end TurnClient

end LinkIce
