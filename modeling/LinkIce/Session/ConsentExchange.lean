import LinkIce.Session.Peers

/-! Consent freshness between two sessions: what becomes of a keepalive at the peer. -/
namespace LinkIce
open Stun

namespace Session

variable {H : Hmac} {env : Env} {s : Session}

/-- `on_keepalive` sends a request with this transaction id. -/
def SendsKeepalive (env : Env) (txn : TransactionId) (s : Session) : Prop :=
  .keepaliveSent txn ∈ logged s (s.onKeepalive env)

theorem keepalive_not_accepted {d : Delivery} {txn : TransactionId}
    (h : d.data = (keepaliveMessage txn).build H) : d.accepted H env = none := by
  unfold Delivery.accepted
  split_ifs
  · rfl
  · rw [h, StunBuilder.parseStun_build H env.net _ (by rfl)]
    rfl

end Session

namespace Peers

open Session

variable {H : Hmac} {envs : Side → Env} {d : Peers} {x : Side} {txn : TransactionId}

/-- Both sessions are connected under each other's credentials, and neither is lite. -/
structure InTouch (d : Peers) : Prop where
  connected : ∀ x, (d.agent x).state = .connected
  full : ∀ x, (d.agent x).cfg.liteMode = false
  keyed : d.Keyed

instance : DecidablePred InTouch := fun d =>
  decidable_of_iff ((∀ x, (d.agent x).state = .connected) ∧
    (∀ x, (d.agent x).cfg.liteMode = false) ∧
    d.Keyed) ⟨fun h => ⟨h.1, h.2.1, h.2.2⟩, fun h => ⟨h.connected, h.full, h.keyed⟩⟩

/-- In some way the keepalive of `x` gets to the peer, is accepted and answered there, and the
answer gets back and is counted. -/
def KeepaliveWorks (H : Hmac) (envs : Side → Env) (x : Side) (txn : TransactionId) (d : Peers) :
    Prop :=
  ∃ there del, del ∈ (d.agent x.other).inbound there ∧
    del.data = (keepaliveMessage txn).build H ∧ (del.accepted H (envs x.other)).isSome = true ∧
    (d.agent x.other).responseMessage txn ∈
      sent (d.agent x.other) ((d.agent x.other).step H (envs x.other) there) ∧
    ∃ back del', del' ∈ ((d.agent x).onKeepalive (envs x)).inbound back ∧
      del'.data = ((d.agent x.other).responseMessage txn).build H ∧
      (((d.agent x).onKeepalive (envs x)).step H (envs x) back).consentMissed = 0

def ConsentWorks (H : Hmac) (envs : Side → Env) (d : Peers) : Prop :=
  ∀ x txn, (d.agent x).SendsKeepalive (envs x) txn → d.KeepaliveWorks H envs x txn

/-- Consent freshness works only as long as neither session sends a keepalive. -/
theorem consent_works_iff (H : Hmac) (envs : Side → Env) (d : Peers) :
    d.ConsentWorks H envs ↔ ∀ x txn, ¬ (d.agent x).SendsKeepalive (envs x) txn := by
  constructor
  · intro h x txn hsends
    obtain ⟨there, del, -, hdata, hacc, -⟩ := h x txn hsends
    rw [keepalive_not_accepted hdata] at hacc
    cases hacc
  · intro h x txn hsends
    exact absurd hsends (h x txn)

/-! ### A connected pair -/

def partners : Peers :=
  lanStart { pmtuActiveProbing := false } (fun | .left => true | .right => false)
  (fun | .left => 5 | .right => 9)

def connecting : List PeerInput :=
  [.act .left .gather, .act .right .gather, .deliver .right 6 0 false, .deliver .left 6 0 false,
    .deliver .left 6 0 false, .deliver .right 6 0 false, .deliver .right 6 0 false,
    .deliver .left 6 1 false]

/-- The keepalive of a connected session gets no answer from its connected peer. -/
theorem keepalive_unanswered :
    ¬ ∃ H : Hmac,
      let d := (partners.movesOf H Env.lanPair connecting).foldl (move H Env.lanPair) partners
      d.InTouch → d.ConsentWorks H Env.lanPair := by
  rintro ⟨H, h⟩
  have hplay : (partners.play Env.lanPair connecting).any (fun d => decide (d.InTouch ∧
      .keepaliveSent (Env.lan.txnId 11) ∈ logged (d.agent .left)
        ((d.agent .left).onKeepalive (Env.lanPair .left)))) = true := by decide +kernel
  have hall := of_decide_eq_true (run_of_play_any hplay H)
  dsimp only at h
  generalize (partners.movesOf H Env.lanPair connecting).foldl (move H Env.lanPair) partners = d
    at h hall
  obtain ⟨htouch, hsends⟩ := hall
  obtain ⟨there, del, -, hdata, hacc, -⟩ := h htouch .left _ hsends
  rw [keepalive_not_accepted hdata] at hacc
  cases hacc

end Peers

end LinkIce
