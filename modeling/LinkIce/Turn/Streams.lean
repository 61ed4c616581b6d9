import LinkIce.Lib.Framing
import LinkIce.Turn.Client

/-! STUN over a stream: the length prefix, its two writers and the reassembly loop of the
TURN client. -/
namespace LinkIce
open Stun List

namespace TurnClient

variable {b m r : Bytes}

/-- `encode_stream_frame`, which refuses what its length field cannot hold. -/
def encodeStreamFrame (payload : Bytes) : Option Bytes :=
  if 0xFFFF < payload.length then none else some (be16 payload.length ++ payload)

/-- `send_to_server`: what the carrier is given. -/
def sendToServer (c : TurnClient) (bytes : Bytes) : List Bytes :=
  if c.serverCid = 0 then []
  else if c.streamFraming then (encodeStreamFrame bytes).toList
  else [bytes]

theorem tryTakeStreamFrame_size (h : tryTakeStreamFrame b = some (m, r)) :
    2 + m.length + r.length = b.length := by
  unfold tryTakeStreamFrame at h
  dsimp only at h
  split_ifs at h with hl
  obtain ⟨rfl, rfl⟩ := Prod.mk.inj (Option.some.inj h)
  simp only [length_take, length_drop]
  omega

private theorem tryTakeStreamFrame_append (c : Bytes) (h : tryTakeStreamFrame b = some (m, r)) :
    tryTakeStreamFrame (b ++ c) = some (m, r ++ c) := by
  unfold tryTakeStreamFrame at h ⊢
  dsimp only at h ⊢
  split_ifs at h with hl
  rw [not_or, not_lt, not_lt] at hl
  obtain ⟨rfl, rfl⟩ := Prod.mk.inj (Option.some.inj h)
  rw [read16_append hl.1 c, if_neg (by simp only [length_append]; omega),
    drop_append_of_le_length hl.1, drop_append_of_le_length hl.2,
    take_append_of_le_length (by simp only [length_drop]; omega)]

/-- The reader behind both reassembly loops. -/
def streamReader : FrameReader UInt8 Bytes where
  take := tryTakeStreamFrame
  size m := 2 + m.length
  size_pos _ := by omega
  take_size := tryTakeStreamFrame_size
  take_append := tryTakeStreamFrame_append

theorem isFrame_be16 (h : m.length ≤ 0xFFFF) : streamReader.IsFrame m (be16 m.length ++ m) := by
  have hread : read16 (be16 m.length ++ m) = m.length := by
    rw [read16_be16, Nat.mod_eq_of_lt (by omega)]
  have hbody : (be16 m.length ++ m).drop 2 = m := rfl
  have hrest : (be16 m.length ++ m).drop (2 + m.length) = [] :=
    drop_eq_nil_of_le (by simp [Nat.add_comm])
  change tryTakeStreamFrame (be16 m.length ++ m) = some (m, [])
  unfold tryTakeStreamFrame
  dsimp only
  have hfull : ¬ ((be16 m.length ++ m).length < 2 ∨
      (be16 m.length ++ m).length < 2 + m.length) := by
    rw [length_append, length_be16]
    omega
  rw [hread, if_neg hfull, hbody, hrest, take_length]

theorem encodeStreamFrame_isFrame {m f : Bytes} (h : encodeStreamFrame m = some f) :
    streamReader.IsFrame m f := by
  unfold encodeStreamFrame at h
  split_ifs at h with hl
  obtain rfl := Option.some.inj h
  exact isFrame_be16 (by omega)

/-! ### The loop of `on_inbound` -/

/-- All that a dispatched message can change of the client. -/
theorem dispatchInboundMessage_client (net : Inet) (md5 : Bytes → Bytes) (c : TurnClient)
    (txn : TransactionId) (bytes : Bytes) : ∃ relayed allocated realm nonce authKey lifetime,
    (dispatchInboundMessage net md5 c txn bytes).1 =
      { c with relayed, allocated, realm, nonce, authKey, lifetime } := by
  unfold dispatchInboundMessage
  split_ifs
  · exact ⟨_, _, _, _, _, _, rfl⟩
  · split
    · exact ⟨_, _, _, _, _, _, rfl⟩
    · split_ifs
      · unfold handleAllocateError
        split_ifs <;> exact ⟨_, _, _, _, _, _, rfl⟩
      · unfold handleAllocateResponse
        split <;> exact ⟨_, _, _, _, _, _, rfl⟩
      · exact ⟨_, _, _, _, _, _, rfl⟩
      · exact ⟨_, _, _, _, _, _, rfl⟩

theorem dispatchInboundMessage_keeps (net : Inet) (md5 : Bytes → Bytes) (c : TurnClient)
    (txn : TransactionId) (bytes : Bytes) :
    (dispatchInboundMessage net md5 c txn bytes).1.rxBuffer = c.rxBuffer ∧
      (dispatchInboundMessage net md5 c txn bytes).1.cfg = c.cfg := by
  obtain ⟨_, _, _, _, _, _, h⟩ := dispatchInboundMessage_client net md5 c txn bytes
  rw [h]
  exact ⟨rfl, rfl⟩

variable (net : Inet) (md5 : Bytes → Bytes)

/-- The frames that `drainFrames` hands to `dispatch_inbound_message`. -/
def drainedFrames (txn : ℕ → TransactionId) : ℕ → TurnClient → List Bytes
  | 0, _ => []
  | fuel + 1, c =>
    match tryTakeStreamFrame c.rxBuffer with
    | none => []
    | some (frame, rest) =>
      frame :: drainedFrames txn fuel
        (dispatchInboundMessage net md5 { c with rxBuffer := rest } (txn fuel) frame).1

theorem drainFrames_client (txn : ℕ → TransactionId) (fuel : ℕ) (c : TurnClient) :
    ∃ relayed allocated realm nonce authKey lifetime rxBuffer, (drainFrames net md5 txn fuel c).1 =
      { c with relayed, allocated, realm, nonce, authKey, lifetime, rxBuffer } := by
  induction fuel generalizing c with
  | zero => exact ⟨_, _, _, _, _, _, _, rfl⟩
  | succ fuel ih =>
    simp only [drainFrames]
    split
    · exact ⟨_, _, _, _, _, _, _, rfl⟩
    · rename_i frame rest _
      obtain ⟨_, _, _, _, _, _, hd⟩ := dispatchInboundMessage_client net md5
        { c with rxBuffer := rest } (txn fuel) frame
      obtain ⟨_, _, _, _, _, _, _, hrest⟩ := ih (dispatchInboundMessage net md5
        { c with rxBuffer := rest } (txn fuel) frame).1
      rw [hrest, hd]
      exact ⟨_, _, _, _, _, _, _, rfl⟩

theorem onInbound_client (txn : ℕ → TransactionId) (c : TurnClient) (bytes : Bytes) :
    ∃ relayed allocated realm nonce authKey lifetime rxBuffer,
      (c.onInbound net md5 txn bytes).1 =
        { c with relayed, allocated, realm, nonce, authKey, lifetime, rxBuffer } := by
  unfold onInbound
  split_ifs
  · exact drainFrames_client net md5 txn _ { c with rxBuffer := c.rxBuffer ++ bytes }
  · obtain ⟨_, _, _, _, _, _, h⟩ := dispatchInboundMessage_client net md5 c (txn 0) bytes
    rw [h]
    exact ⟨_, _, _, _, _, _, _, rfl⟩

/-- The frames that one call of `on_inbound` dispatches in stream mode. -/
def inboundFrames (txn : ℕ → TransactionId) (c : TurnClient) (bytes : Bytes) : List Bytes :=
  drainedFrames net md5 txn (c.rxBuffer ++ bytes).length { c with rxBuffer := c.rxBuffer ++ bytes }

/-- Chunk after chunk, with the random ids of each call: what was dispatched, and the
client in the end. -/
def receive : TurnClient → List ((ℕ → TransactionId) × Bytes) → List Bytes × TurnClient
  | c, [] => ([], c)
  | c, (txn, bytes) :: rest =>
    let r := receive (c.onInbound net md5 txn bytes).1 rest
    (c.inboundFrames net md5 txn bytes ++ r.1, r.2)

end TurnClient

end LinkIce
