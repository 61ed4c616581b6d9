import LinkIce.Lib.Runs
import LinkIce.Session.StepPaths
import LinkIce.Stun.RoundTrip

/-! Scripted runs. A message that was built and signed goes through parser and gate as the
message it stands for, so a run on such messages does not depend on the digest function
and can be evaluated. -/
namespace LinkIce
open Stun Option

namespace Session

variable {H : Hmac} {env : Env} {s t : Session} {b : StunBuilder} {cid : Cid}

def admits (env : Env) (cid : Cid) (b : StunBuilder) (s : Session) : Bool :=
  let m := b.message env.net
  b.fits && b.signedWith (s.integrityKey m) && !s.isGatherResponse m &&
    !isTurnServer s.turn cid && !isTurnServer s.turnBackupProbe cid

theorem accepted_of_admits (fromTcp : Bool) (h : s.admits env cid b = true) :
    (⟨s, cid, fromTcp, b.build H⟩ : Delivery).accepted H env = some (b.message env.net) := by
  simp only [admits, Bool.and_eq_true, Bool.not_eq_true'] at h
  obtain ⟨⟨⟨⟨hf, hk⟩, hg⟩, ht⟩, hb⟩ := h
  have hauth : s.authenticated H (b.message env.net) (b.build H) = true := by
    rw [authenticated, StunBuilder.message_hasIntegrity env.net hk,
      StunBuilder.verifyIntegrity_build H b hf hk]
    rfl
  simp [Delivery.accepted, Delivery.isTurn, ht, hb, hg, hauth,
    StunBuilder.parseStun_build H env.net b hf]

theorem onCarrierData_build (fromTcp : Bool) (h : s.admits env cid b = true) :
    s.onCarrierData H env cid fromTcp (b.build H) =
      s.onStun env (b.message env.net) cid fromTcp :=
  onCarrierData_accepted (mem_def.mpr (accepted_of_admits fromTcp h))

end Session

inductive Input
  | event (e : Event)
  | stun (cid : Cid) (b : StunBuilder)

def Input.toEvent (H : Hmac) : Input → Event
  | event e => e
  | stun cid b => .udpData cid (b.build H)

def Event.isLocal : Event → Bool
  | .udpData .. | .tcpFrame .. | .task (.relayStun ..) => false
  | _ => true

namespace Session

variable {H : Hmac} {env : Env} {s t : Session} {e : Event} {i : Input} {is : List Input}

theorem step_isLocal (h : e.isLocal = true) (H H' : Hmac) : s.step H env e = s.step H' env e := by
  cases e with
  | udpData | tcpFrame => cases h
  | task t =>
    cases t with
    | relayStun => cases h
    | _ => rfl
  | _ => rfl

/-- Without datagrams the run does not depend on the digest. -/
theorem run_isLocal {es : List Event} (h : es.all Event.isLocal = true) (H H' : Hmac) :
    s.run H env es = s.run H' env es := by
  induction es generalizing s with
  | nil => rfl
  | cons e es ih =>
    rw [List.all_cons, Bool.and_eq_true] at h
    rw [run_cons, run_cons, step_isLocal h.1 H H']
    exact ih h.2

/-- One input, without the digest function; `none` when the input depends on it. -/
def feed (env : Env) (s : Session) : Input → Option Session
  | .event e => if e.isLocal then some (s.step zeroHmac env e) else none
  | .stun cid b =>
    if s.admits env cid b then some (s.onStun env (b.message env.net) cid false) else none

def play (env : Env) (s : Session) : List Input → Option Session
  | [] => some s
  | i :: is => (s.feed env i).bind fun t => t.play env is

theorem step_of_feed (h : s.feed env i = some t) : s.step H env (i.toEvent H) = t := by
  cases i with
  | event e =>
    simp only [feed] at h
    split_ifs at h with he
    obtain rfl := some.inj h
    exact step_isLocal he _ _
  | stun cid b =>
    simp only [feed] at h
    split_ifs at h with ha
    obtain rfl := some.inj h
    exact onCarrierData_build false ha

/-- A script that plays through tells the end of the run under every digest. -/
theorem run_of_play (h : s.play env is = some t) (H : Hmac) :
    s.run H env (is.map (·.toEvent H)) = t := by
  induction is generalizing s with
  | nil => exact some.inj h
  | cons i is ih =>
    obtain ⟨u, hu, ht⟩ := bind_eq_some_iff.mp h
    rw [List.map_cons, run_cons, step_of_feed hu]
    exact ih ht

/-- What a played script shows holds of the run for every digest function. -/
theorem run_of_play_any {p : Session → Bool} (h : (s.play env is).any p = true) (H : Hmac) :
    p (s.run H env (is.map (·.toEvent H))) = true := by
  cases ht : s.play env is with
  | none => simp [ht] at h
  | some t =>
    rw [run_of_play ht H]
    simpa [ht] using h

/-! ### Conditions along a script -/

theorem inbound_isLocal (h : e.isLocal = true) : s.inbound e = none := by
  cases e with
  | udpData | tcpFrame => cases h
  | task t =>
    cases t with
    | relayStun => cases h
    | _ => rfl
  | _ => rfl

/-- What an admitted message licenses does not depend on its digest. -/
theorem stunAllowed_of_admits {cid : Cid} {b : StunBuilder} {a : Label}
    (hb : s.admits env cid b = true) (h : a ∈ s.allowed H env (.udpData cid (b.build H))) :
    a ∈ s.stunAllowed env (b.message env.net) cid false := by
  have hacc := accepted_of_admits (H := H) false hb
  simp only [admits, Bool.and_eq_true, Bool.not_eq_true'] at hb
  obtain ⟨⟨⟨⟨hf, -⟩, hg⟩, ht⟩, hp⟩ := hb
  rcases h with h | ⟨d, hd, h⟩
  · exact h.elim
  · obtain rfl := some.inj hd
    have hturn : (⟨s, cid, false, b.build H⟩ : Delivery).isTurn = false := by
      simp [Delivery.isTurn, ht, hp]
    rcases h with ⟨-, hfor, -⟩ | ⟨m, hm, -⟩ | ⟨m, hm, h⟩
    · rw [Delivery.isForeign, hturn, StunBuilder.parseStun_build H env.net b hf] at hfor
      cases hfor
    · rw [Delivery.gatherResponse, hturn, StunBuilder.parseStun_build H env.net b hf,
        if_neg Bool.false_ne_true] at hm
      obtain ⟨hm, hgm⟩ := filter_eq_some_iff.mp hm
      rw [← some.inj hm, hg] at hgm
      cases hgm
    · rwa [← some.inj (hacc.symm.trans hm)] at h

theorem accepted_of_feed {d : Delivery} {m : StunMessage}
    (hf : (s.feed env i).isSome = true) (hd : d ∈ s.inbound (i.toEvent H))
    (hm : m ∈ d.accepted H env) :
    ∃ cid b, i = .stun cid b ∧ d = ⟨s, cid, false, b.build H⟩ ∧ m = b.message env.net := by
  cases i with
  | event e =>
    have he : e.isLocal = true := by
      by_contra he
      simp [feed, he] at hf
    rw [Input.toEvent, inbound_isLocal he] at hd
    cases hd
  | stun cid b =>
    have hb : s.admits env cid b = true := by
      by_contra hb
      simp [feed, hb] at hf
    obtain rfl := some.inj hd
    rw [accepted_of_admits false hb] at hm
    exact ⟨cid, b, rfl, rfl, (some.inj hm).symm⟩

def playAlong (env : Env) (Q : Session → Input → Bool) (s : Session) : List Input → Bool
  | [] => true
  | i :: is => Q s i && (s.feed env i).any fun t => t.playAlong env Q is

theorem along_of_play {P : Session → Event → Prop} {Q : Session → Input → Bool}
    (hQ : ∀ s i, (s.feed env i).isSome = true → Q s i = true → P s (i.toEvent H))
    (h : s.playAlong env Q is = true) :
    Along (step H env) P s (is.map (·.toEvent H)) := by
  induction is generalizing s with
  | nil => trivial
  | cons i is ih =>
    simp only [playAlong, Bool.and_eq_true] at h
    cases hf : s.feed env i with
    | none => simp [hf] at h
    | some t =>
      rw [hf] at h
      refine ⟨hQ s i (by simp [hf]) h.1, ?_⟩
      rw [step_of_feed hf]
      exact ih h.2

/-! ### A peer on the network of `Env.lan` -/

def peerHost : Candidate := hostCandidate .ipv4 (Block.ofBytes 16 [10, 0, 0, 2]) 6000 65535

def peerHost2 : Candidate := hostCandidate .ipv4 (Block.ofBytes 16 [10, 0, 0, 3]) 6000 65535

def pLocal : Bytes := [0x70] ++ localSuffix

def peerResponse (pwd : Bytes) (txn : TransactionId) : StunBuilder :=
  ((⟨bindingResponse, txn, []⟩ : StunBuilder).addIntegrity pwd).addFingerprint

/-- The peer checks a pair; `controlling` is the role it claims. -/
def peerRequest (pwd : Bytes) (txn : TransactionId) (controlling useCandidate : Bool)
    (tiebreaker : ℕ) : StunBuilder :=
  let b : StunBuilder := ⟨bindingRequest, txn, []⟩
  let b := if controlling then b.addIceControlling tiebreaker else b.addIceControlled tiebreaker
  let b := if useCandidate then b.addUseCandidate else b
  (b.addIntegrity pwd).addFingerprint

/-- The session checks the host candidate of its peer and nominates it. -/
def hostNominated : List Input :=
  [.event .gather, .event (.addRemoteCandidates [1] [2] [peerHost] false),
    .stun 6 (peerResponse [2] (Env.lan.txnId 3)), .stun 6 (peerResponse [2] (Env.lan.txnId 3))]

end Session

end LinkIce
