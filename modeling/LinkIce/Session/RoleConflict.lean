import LinkIce.Session.LiteAgent
import LinkIce.Session.Peers
import LinkIce.Session.UseCandidate

/-! Two sessions that hold the same role: the one with the larger tiebreaker insists, the
other one gives way, and every 487 makes its receiver change sides. -/
namespace LinkIce
open Stun List

namespace Stun

namespace StunMessage

def Claims (controlling : Bool) (tiebreaker : ℕ) (m : StunMessage) : Prop :=
  m.iceControlling = (if controlling then some tiebreaker else none) ∧
    m.iceControlled = if controlling then none else some tiebreaker

def ClaimsNothing (m : StunMessage) : Prop := m.iceControlling = none ∧ m.iceControlled = none

end StunMessage

end Stun

namespace Session

open StunMessage

variable {H : Hmac} {env : Env} {A : Set Label} {s t : Session} {b : StunBuilder} {m : StunMessage}
  {c fromTcp : Bool} {cid : Cid} {l : Option Label} {tb : ℕ} {net : Inet} {e : Event}

/-! ### Claims -/

theorem sameRole_of_claims (h : m.Claims c tb) : s.sameRole m = (s.controlling == c) := by
  obtain ⟨h₁, h₂⟩ := h
  cases c <;> cases hs : s.controlling <;> simp_all [sameRole]

theorem sameRole_of_claimsNothing (h : m.ClaimsNothing) : s.sameRole m = false := by
  simp [sameRole, h.1, h.2]

/-- The tie is decided by the tiebreakers alone. -/
theorem givesWay_iff_of_claims (h : m.Claims c tb) :
    s.givesWay m ↔ s.controlling = c ∧ s.tiebreaker < tb := by
  have hsame : s.sameRole m = true ↔ s.controlling = c := by
    rw [sameRole_of_claims h, beq_iff_eq]
  have htb : senderTiebreaker m = tb := by
    cases c <;> simp [senderTiebreaker, h.1, h.2]
  have hctl : m.iceControlling.isSome = c := by
    cases c <;> simp [h.1]
  rw [givesWay, hsame, htb, hctl]
  constructor
  · rintro ⟨h₁, -, h₂⟩
    exact ⟨h₁, h₂⟩
  · rintro ⟨h₁, h₂⟩
    exact ⟨h₁, h₁.symm, h₂⟩

private theorem read64_be64_lt {n : ℕ} (h : n < 2 ^ 64) : read64 (be64 n) = n := by
  rw [← append_nil (be64 n), read64_be64, Nat.mod_eq_of_lt h]

theorem checkMessage_claims {p : CheckPair} (h : s.tiebreaker < 2 ^ 64) :
    ((s.checkMessage p).message net).Claims s.controlling s.tiebreaker := by
  unfold checkMessage Claims
  cases hc : s.controlling
  all_goals
    simp only [Bool.false_eq_true, if_true, if_false]
    try split_ifs
  all_goals
    simp [StunBuilder.addFingerprint, StunBuilder.addIntegrity, StunBuilder.addIceControlled,
      StunBuilder.addIceControlling, StunBuilder.addUseCandidate, StunBuilder.addPriority,
      StunBuilder.addUsername, StunBuilder.message_add, Attr.note, setAttr, read64_be64_lt h]
    simp [StunBuilder.message]

theorem pmtuMessage_claims {txn : TransactionId} {size : ℕ} (h : s.tiebreaker < 2 ^ 64) :
    ((s.pmtuMessage txn size).message net).Claims s.controlling s.tiebreaker := by
  unfold pmtuMessage Claims
  cases hc : s.controlling
  all_goals
    simp [StunBuilder.addFingerprint, StunBuilder.addIntegrity, StunBuilder.addIceControlled,
      StunBuilder.addIceControlling, StunBuilder.addPriority, StunBuilder.addUsername,
      StunBuilder.message_add, StunBuilder.message_addPaddingTo, Attr.note, setAttr,
      read64_be64_lt h]
    simp [StunBuilder.message]

theorem Says.claims (h : s.Says env l b) (net : Inet) (ht : s.tiebreaker < 2 ^ 64) :
    (b.message net).ClaimsNothing ∨ (b.message net).Claims s.controlling s.tiebreaker := by
  cases h with
  | plain h => exact .inl ⟨by simp [StunBuilder.message, h], by simp [StunBuilder.message, h]⟩
  | check => exact .inr (checkMessage_claims ht)
  | followUp => exact .inr (checkMessage_claims ht)
  | answer => exact .inl ⟨rfl, rfl⟩
  | conflict => exact .inl ⟨rfl, rfl⟩
  | probe size => exact .inr (pmtuMessage_claims ht)

theorem Says.of_bindingError (h : s.Says env l b)
    (hb : b.msgType = bindingError) (ha : b.attrs ≠ []) :
    l = some .reject ∧ ∃ txn, b = s.roleConflictMessage txn := by
  cases h with
  | plain h => exact absurd h ha
  | check | followUp =>
    rw [checkMessage_msgType] at hb
    exact absurd hb (by decide)
  | answer txn =>
    have hr : (s.responseMessage txn).msgType = bindingResponse := rfl
    rw [hr] at hb
    exact absurd hb (by decide)
  | conflict txn => exact ⟨rfl, txn, rfl⟩
  | probe size =>
    rw [pmtuMessage_msgType] at hb
    exact absurd hb (by decide)

/-! ### What one session does -/

theorem flipRole_controlling : (s.flipRole env).controlling = !s.controlling := by
  rcases flipRole_eq env s with ⟨-, h⟩ | ⟨-, h⟩
  · rw [h, recheck_controlling]
  · rw [h]

private theorem acceptRequest_unflipped :
    Steps env { l | l ≠ .flip } s (s.acceptRequest env m cid fromTcp) := by
  apply acceptRequest_steps
  · simp
  · simp
  · intro p _ _
    refine ⟨by simp, ⟨by simp, by simp, by simp, fun _ _ _ => ⟨by simp, by simp, ?_, by simp⟩⟩⟩
    rintro l hl rfl
    exact hl
  · simp
  · simp

/-- A role change by a message is one call of `flip_role`, and what follows keeps the new role. -/
theorem onStun_flipRole (h : s.flipsOn m) :
    Steps env { l | l ≠ .flip } (s.flipRole env) (s.onStun env m cid fromTcp) := by
  rcases h with ⟨hm, he⟩ | ⟨hm, hg⟩
  · rw [onStun, if_pos hm, handleErrorResponse, if_pos he]
    exact .refl _
  · rcases handleRoleConflict_eq env s m hg.1 with ⟨-, hr⟩ | ⟨hn, -⟩
    · rw [onStun, if_neg (by rw [hm]; decide), if_neg (by rw [hm]; decide), if_pos hm,
        handleBindingRequest, if_pos hg.1, hr, if_pos rfl]
      exact acceptRequest_unflipped
    · exact absurd hg hn

theorem onStun_flips (h : s.flipsOn m) :
    (s.onStun env m cid fromTcp).controlling = !s.controlling :=
  (steps_controlling (onStun_flipRole h) (by simp)).trans flipRole_controlling

def changesRole (H : Hmac) (env : Env) (s : Session) (e : Event) : Prop :=
  ∃ d ∈ s.inbound e, ∃ m ∈ d.accepted H env, d.session.flipsOn m

instance (H : Hmac) (env : Env) (s : Session) (e : Event) : Decidable (s.changesRole H env e) := by
  unfold changesRole flipsOn givesWay
  infer_instance

def roleChanges (H : Hmac) (env : Env) : Session → List Event → ℕ
  | _, [] => 0
  | s, e :: es => roleChanges H env (s.step H env e) es + if s.changesRole H env e then 1 else 0

theorem step_changesRole (h : s.changesRole H env e) :
    (s.step H env e).controlling = !s.controlling := by
  obtain ⟨d, hd, m, hm, hf⟩ := h
  rw [step_accepted hd hm, onStun_flips hf]
  exact congrArg (!·) (congrArg Core.controlling (inbound_core hd))

theorem step_keepsRole (h : ¬ s.changesRole H env e) :
    (s.step H env e).controlling = s.controlling :=
  steps_controlling (step_steps H env s e) fun hf => h (allowed_inbound hf rfl)

/-- In every run the role changes with each message that settles a conflict against it, and with
nothing else. -/
theorem run_keeps_role_iff (H : Hmac) (env : Env) (s : Session) (es : List Event) :
    (s.run H env es).controlling = s.controlling ↔ s.roleChanges H env es % 2 = 0 := by
  induction es generalizing s with
  | nil => exact iff_of_true rfl rfl
  | cons e es ih =>
    have hrest := ih (s.step H env e)
    change ((s.step H env e).run H env es).controlling = _ ↔ _
    by_cases h : s.changesRole H env e
    · rw [step_changesRole h] at hrest
      have hodd : s.roleChanges H env (e :: es) % 2 = 0 ↔
          ¬ (s.step H env e).roleChanges H env es % 2 = 0 := by
        rw [roleChanges, if_pos h]
        omega
      rw [hodd, ← hrest, Bool.not_eq_not]
    · rw [step_keepsRole h] at hrest
      rw [roleChanges, if_neg h]
      exact hrest

theorem onStun_rejects (h : s.rejectsOn m) :
    s.onStun env m cid fromTcp = s.rejectRequest m cid fromTcp := by
  obtain ⟨hm, hs, hn⟩ := h
  rcases handleRoleConflict_eq env s m hs with ⟨hg, -⟩ | ⟨-, hr⟩
  · exact absurd hg hn
  · rw [onStun, if_neg (by rw [hm]; decide), if_neg (by rw [hm]; decide), if_pos hm,
      handleBindingRequest, if_pos hs, hr, if_neg Bool.false_ne_true]

theorem mem_sent {e : Effect} (new : List Effect) (h : t.log = new ++ s.log) (he : e ∈ new)
    (hb : b ∈ e.stun?) : b ∈ sent s t := by
  rw [sent, logged_eq h]
  exact mem_filterMap.mpr ⟨e, he, hb⟩

end Session

def Delivery.canAnswer (d : Delivery) : Bool :=
  if d.fromTcp then d.session.hasCarrierTcp
  else if d.session.turn.isSome ∧ d.cid ∈ d.session.relayCids then
    decide ((d.session.endpointOf false d.cid).ip ≠ [])
  else d.session.hasCarrier

theorem Delivery.reply_sends {d : Delivery} (h : d.canAnswer = true) {b : StunBuilder} :
    ∃ e, b ∈ e.stun? ∧
      (d.session.reply d.fromTcp d.cid (d.session.endpointOf d.fromTcp d.cid) b).log =
        e :: d.session.log := by
  unfold canAnswer at h
  unfold Session.reply Session.carrierSend
  cases hf : d.fromTcp with
  | true =>
    rw [hf, if_pos rfl] at h
    rw [if_pos rfl, if_pos rfl, if_pos h]
    exact ⟨_, rfl, rfl⟩
  | false =>
    rw [hf] at h
    simp only [Bool.false_eq_true, if_false] at h ⊢
    split_ifs at h ⊢ with hr hip
    · simp [hip] at h
    · exact ⟨_, rfl, rfl⟩
    · exact ⟨_, rfl, rfl⟩

/-! ### Two sessions -/

namespace Peers

open Session StunMessage

variable {H : Hmac} {envs : Side → Env} {d : Peers} {mv : PeerMove} {x L : Side} {e : Event}
  {c : Bool} {b : StunBuilder} {m : StunMessage} {s : Session} {txn : TransactionId}

def Refuses (net : Inet) (b : StunBuilder) : Prop :=
  b.msgType = bindingError ∧ (b.message net).errorCode = some 487

/-- The move lets an agent process a request that claims the role of the agent. -/
def Conflict (H : Hmac) (envs : Side → Env) (d : Peers) : PeerMove → Prop
  | .deliver x _ _ e => ∃ del ∈ (d.agent x).inbound e, ∃ m ∈ del.accepted H (envs x),
    m.msgType = bindingRequest ∧ (d.agent x).sameRole m = true
  | _ => False

/-- No request, no success response and no 487 is in flight. -/
def Quiet (envs : Side → Env) (d : Peers) : Prop :=
  ∀ x, ∀ b ∈ d.inbox x, b.msgType ≠ bindingRequest ∧ b.msgType ≠ bindingResponse ∧
    ¬ Refuses (envs x).net b

/-- A 487 arrives only while the two hold the same role, and a request over a connection that
it can be answered on. -/
def Orderly (envs : Side → Env) (d : Peers) : PeerMove → Prop
  | .deliver x b _ e =>
    (Refuses (envs x).net b → (d.agent x).controlling = (d.agent x.other).controlling) ∧
      (b.msgType = bindingRequest → ∀ del ∈ (d.agent x).inbound e, del.canAnswer = true)
  | _ => True

/-- `L` has the larger tiebreaker and holds role `c`. Its requests say so; the other one
refuses nothing. -/
structure Standoff (L : Side) (c : Bool) (d : Peers) : Prop where
  wide : ∀ x, (d.agent x).tiebreaker < 2 ^ 64
  larger : (d.agent L.other).tiebreaker < (d.agent L).tiebreaker
  role : (d.agent L).controlling = c
  claims : ∀ b ∈ d.inbox L.other, ∀ net, (b.message net).ClaimsNothing ∨
    (b.message net).Claims c (d.agent L).tiebreaker
  claimsOther : ∀ b ∈ d.inbox L, ∀ net, (b.message net).ClaimsNothing ∨
    ∃ r, (b.message net).Claims r (d.agent L.other).tiebreaker
  unrefused : ∀ b ∈ d.inbox L, b.msgType = bindingError → b.attrs = []

theorem move_tiebreaker (H : Hmac) (envs : Side → Env) (d : Peers) (mv : PeerMove) (x : Side) :
    ((d.move H envs mv).agent x).tiebreaker = (d.agent x).tiebreaker := by
  rcases move_agent with hx | ⟨e, -, hx⟩
  · rw [hx]
  · rw [hx]
    exact congrArg (·.2.1) (steps_wiring (step_steps H (envs x) (d.agent x) e))

namespace Standoff

theorem not_flips (h : d.Standoff L c) (hh : d.Honest H envs mv) (hL : mv.event = some (L, e)) :
    .flip ∉ (d.agent L).allowed H (envs L) e := by
  intro hf
  obtain ⟨del, hd, m, hm, hflip⟩ := allowed_inbound hf rfl
  obtain ⟨b, again, -, hb, rfl, hne⟩ := hh.accepted hL hd hm
  have hctl : del.session.tiebreaker = (d.agent L).tiebreaker :=
    congrArg Core.tiebreaker (inbound_core hd)
  rcases hflip with ⟨he, -⟩ | ⟨-, hg⟩
  · rw [StunBuilder.message_msgType] at he
    exact hne (h.unrefused b hb he)
  · rcases h.claimsOther b hb (envs L).net with hn | ⟨r, hr⟩
    · rw [givesWay, sameRole_of_claimsNothing hn] at hg
      cases hg.1
    · have hlt := ((givesWay_iff_of_claims hr).mp hg).2
      have := h.larger
      omega

theorem not_rejects (h : d.Standoff L c) (hh : d.Honest H envs mv)
    (hS : mv.event = some (L.other, e)) :
    .reject ∉ (d.agent L.other).allowed H (envs L.other) e := by
  intro hf
  obtain ⟨del, hd, m, hm, -, hsame, hnot⟩ := allowed_inbound hf rfl
  obtain ⟨b, again, -, hb, rfl, -⟩ := hh.accepted hS hd hm
  have htb : del.session.tiebreaker = (d.agent L.other).tiebreaker :=
    congrArg Core.tiebreaker (inbound_core hd)
  rcases h.claims b hb (envs L.other).net with hn | hr
  · rw [sameRole_of_claimsNothing hn] at hsame
    cases hsame
  · rw [sameRole_of_claims hr, beq_iff_eq] at hsame
    exact hnot ((givesWay_iff_of_claims hr).mpr ⟨hsame, htb.trans_lt h.larger⟩)

theorem move_larger (h : d.Standoff L c) (hh : d.Honest H envs mv)
    (hL : mv.event = some (L, e)) : (d.move H envs mv).Standoff L c := by
  have htb := move_tiebreaker H envs d mv
  have hflip := h.not_flips hh hL
  refine ⟨fun x => (htb x).trans_lt (h.wide x), ?_, ?_, fun b hb net => ?_, fun b hb net => ?_,
    fun b hb => h.unrefused b (mem_move_self hL hb)⟩
  · rw [htb, htb]
    exact h.larger
  · rw [move_agent_self hL]
    exact (steps_controlling (step_steps H (envs L) (d.agent L) e) hflip).trans h.role
  · rw [htb]
    rw [move_inbox_other hL] at hb
    rcases mem_append.mp hb with hb | hb
    · obtain ⟨u, l, hu, -, -, hspeaks⟩ := mem_sent_step hb
      have hrole : u.controlling = c := (steps_controlling hu hflip).trans h.role
      have hutb : u.tiebreaker = (d.agent L).tiebreaker := congrArg (·.2.1) (steps_wiring hu)
      rw [← hrole, ← hutb]
      exact hspeaks.claims net (hutb.trans_lt (h.wide L))
    · exact h.claims b hb net
  · rw [htb]
    exact h.claimsOther b (mem_move_self hL hb) net

theorem move_smaller (h : d.Standoff L c) (hh : d.Honest H envs mv)
    (hS : mv.event = some (L.other, e)) : (d.move H envs mv).Standoff L c := by
  have htb := move_tiebreaker H envs d mv
  refine ⟨fun x => (htb x).trans_lt (h.wide x), ?_, ?_, fun b hb net => ?_, fun b hb net => ?_,
    fun b hb he => ?_⟩
  · rw [htb, htb]
    exact h.larger
  · rw [move_agent_of_other hS]
    exact h.role
  · rw [htb]
    exact h.claims b (mem_move_self hS hb) net
  · rw [htb]
    rw [move_inbox_of_other hS] at hb
    rcases mem_append.mp hb with hb | hb
    · obtain ⟨u, l, hu, -, -, hspeaks⟩ := mem_sent_step hb
      have hutb : u.tiebreaker = (d.agent L.other).tiebreaker := congrArg (·.2.1) (steps_wiring hu)
      rw [← hutb]
      exact (hspeaks.claims net (hutb.trans_lt (h.wide L.other))).imp_right fun hc => ⟨_, hc⟩
    · exact h.claimsOther b hb net
  · rw [move_inbox_of_other hS] at hb
    rcases mem_append.mp hb with hb | hb
    · obtain ⟨u, l, hu, -, hl, hspeaks⟩ := mem_sent_step hb
      by_contra hne
      obtain ⟨rfl, -⟩ := hspeaks.of_bindingError he hne
      exact h.not_rejects hh hS (hl _ rfl)
    · exact h.unrefused b hb he

end Standoff

/-- The other agent has given way, or is about to be told. -/
def Resolves (L : Side) (c : Bool) (d : Peers) : Prop :=
  (d.agent L.other).controlling = !c ∨
    ∃ txn, (d.agent L).roleConflictMessage txn ∈ d.inbox L.other

theorem roleConflictMessage_congr {s t : Session} (h : t.localPwd = s.localPwd)
    : t.roleConflictMessage txn = s.roleConflictMessage txn := by
  rw [roleConflictMessage, roleConflictMessage, h]

theorem refuses_roleConflictMessage {net : Inet} :
    Refuses net (s.roleConflictMessage txn) := ⟨rfl, rfl⟩

/-- A 487 that arrives makes its receiver change sides. -/
theorem deliver_refusal {again : Bool}
    (h : d.Honest H envs (.deliver x ((d.agent x.other).roleConflictMessage txn) again e))
    (hk : d.Keyed) :
    ((d.agent x).step H (envs x) e).controlling = !(d.agent x).controlling := by
  obtain ⟨-, hfits, del, hd, hturn, hdata⟩ := h
  generalize hb : (d.agent x.other).roleConflictMessage txn = b at hfits hdata
  have hm : (b.message (envs x).net).msgType = bindingError ∧
      (b.message (envs x).net).errorCode = some 487 := by
    rw [← hb]
    exact ⟨rfl, rfl⟩
  have hkey : b.signedWith (del.session.integrityKey (b.message (envs x).net)) = true := by
    have hpwd : del.session.remotePwd = (d.agent x.other).localPwd :=
      (congrArg Core.remotePwd (inbound_core hd)).trans (hk x).2
    rw [integrityKey, if_pos (.inr hm.1), hpwd, ← hb]
    simp [StunBuilder.signedWith, roleConflictMessage, StunBuilder.addErrorCode,
      StunBuilder.addIntegrity, StunBuilder.addFingerprint, StunBuilder.add, Attr.isIntegrity]
  simp only [Delivery.isTurn, Bool.or_eq_false_iff] at hturn
  have hgather : del.session.isGatherResponse (b.message (envs x).net) = false := by
    simp [isGatherResponse, hm.1, bindingError, bindingResponse]
  have hadmits : del.session.admits (envs x) del.cid b = true := by
    simp [admits, hfits, hkey, hgather, hturn.1, hturn.2]
  rw [(step_inbound H (envs x) hd).2, hdata, onCarrierData_build del.fromTcp hadmits,
    onStun_flips (.inl hm)]
  exact congrArg (!·) (congrArg Core.controlling (inbound_core hd))

theorem rejectRequest_sent {del : Delivery} (hd : del ∈ s.inbound e) (h : del.canAnswer = true) :
    (del.session.rejectRequest m del.cid del.fromTcp).roleConflictMessage m.txnId ∈
      sent s (del.session.rejectRequest m del.cid del.fromTcp) := by
  obtain ⟨⟨l, -, hw⟩, -⟩ := step_inbound zeroHmac .lan hd
  obtain ⟨new, hn, -⟩ := hw.log
  obtain ⟨x, hx, hlog⟩ := Delivery.reply_sends h
  have hpwd : (del.session.rejectRequest m del.cid del.fromTcp).localPwd = del.session.localPwd :=
    congrArg Core.localPwd (reply_core _ _ _ _ _)
  rw [roleConflictMessage_congr hpwd]
  refine mem_sent (x :: new) ?_ (mem_cons_self ..) hx
  exact hlog.trans (congrArg (x :: ·) hn)

namespace Standoff

theorem stays (h : d.Standoff L c) (hh : d.Honest H envs mv) (ho : d.Orderly envs mv)
    (hS : mv.event = some (L.other, e)) (hc : (d.agent L.other).controlling = !c) :
    ((d.agent L.other).step H (envs L.other) e).controlling = !c := by
  refine (step_keepsRole ?_).trans hc
  rintro ⟨del, hd, m, hm, hflip⟩
  obtain ⟨b, again, rfl, hb, rfl, -⟩ := hh.accepted hS hd hm
  have hctl : del.session.controlling = !c :=
    (congrArg Core.controlling (inbound_core hd)).trans hc
  rcases hflip with ⟨ht, he⟩ | ⟨-, hg⟩
  · rw [StunBuilder.message_msgType] at ht
    have hsame := ho.1 ⟨ht, he⟩
    rw [Side.other_other, hc, h.role] at hsame
    cases c <;> cases hsame
  · rcases h.claims b hb (envs L.other).net with hn | hr
    · rw [givesWay, sameRole_of_claimsNothing hn] at hg
      cases hg.1
    · have hrole := ((givesWay_iff_of_claims hr).mp hg).1
      rw [hctl] at hrole
      cases c <;> cases hrole

theorem move (h : d.Standoff L c) (hh : d.Honest H envs mv) (hone : Once mv) :
    (d.move H envs mv).Standoff L c := by
  obtain ⟨x, e, hx⟩ := hone.event
  rcases L.eq_or_eq_other x with rfl | rfl
  · exact h.move_larger hh hx
  · exact h.move_smaller hh hx

theorem resolves_move (h : d.Standoff L c) (hh : d.Honest H envs mv) (hone : Once mv)
    (hk : d.Keyed) (hk' : (d.move H envs mv).Keyed) (ho : d.Orderly envs mv)
    (hr : d.Resolves L c) : (d.move H envs mv).Resolves L c := by
  obtain ⟨x, e, hx⟩ := hone.event
  rcases L.eq_or_eq_other x with rfl | rfl
  · have hpwd : ((d.move H envs mv).agent x).localPwd = (d.agent x).localPwd := by
      have hnew := (hk' x.other).2
      rw [Side.other_other, move_agent_other hx, (hk x.other).2, Side.other_other] at hnew
      exact hnew.symm
    rcases hr with hc | ⟨txn, hb⟩
    · left
      rw [move_agent_other hx]
      exact hc
    · right
      refine ⟨txn, ?_⟩
      rw [roleConflictMessage_congr hpwd, move_inbox_other hx]
      exact mem_append_right _ hb
  · rcases hr with hc | ⟨txn, hb⟩
    · left
      rw [move_agent_self hx]
      exact h.stays hh ho hx hc
    · by_cases harrives : ∃ again,
          mv = .deliver L.other ((d.agent L).roleConflictMessage txn) again e
      · obtain ⟨again, rfl⟩ := harrives
        have hsame := ho.1 refuses_roleConflictMessage
        rw [Side.other_other, h.role] at hsame
        left
        rw [move_agent_self hx, deliver_refusal (by rwa [Side.other_other]) hk, hsame]
      · right
        refine ⟨txn, ?_⟩
        rw [move_agent_of_other hx]
        refine Duo.mem_move_of_ne hx hb fun b again hmv hne => harrives ⟨again, ?_⟩
        rw [hmv, hne]

/-- Once a conflicting request has been processed, the conflict gets resolved. -/
theorem resolves_of_conflict (h : d.Standoff L c) (hh : d.Honest H envs mv)
    (ho : d.Orderly envs mv) (hc : d.Conflict H envs mv) :
    (d.move H envs mv).Resolves L c := by
  cases mv with
  | act | lose => exact hc.elim
  | deliver x b again e =>
    obtain ⟨del, hd, m, hm, hreq, hsame⟩ := hc
    obtain ⟨_, _, hmv, hb, rfl, -⟩ := hh.accepted rfl hd hm
    obtain ⟨-, rfl, -, -⟩ := NetMove.deliver.inj hmv
    have hcore := inbound_core hd
    rcases L.eq_or_eq_other x with rfl | rfl
    · rcases h.claimsOther b hb (envs x).net with hn | ⟨r, hr⟩
      · rw [sameRole_of_claimsNothing hn] at hsame
        cases hsame
      · have hnot : ¬ del.session.givesWay (b.message (envs x).net) := fun hg => by
          have hlt := ((givesWay_iff_of_claims hr).mp hg).2
          rw [show del.session.tiebreaker = _ from congrArg Core.tiebreaker hcore] at hlt
          exact absurd h.larger (not_lt.mpr hlt.le)
        have hrole : del.session.sameRole (b.message (envs x).net) = true := by
          rw [sameRole_of_claims hr] at hsame ⊢
          rwa [show del.session.controlling = _ from congrArg Core.controlling hcore]
        have hstep := (step_accepted hd hm).trans (onStun_rejects ⟨hreq, hrole, hnot⟩)
        have hans := ho.2 ((StunBuilder.message_msgType _ b).symm.trans hreq) del hd
        right
        refine ⟨(b.message (envs x).net).txnId, ?_⟩
        rw [move_agent_self rfl, move_inbox_other rfl, hstep]
        exact mem_append_left _ (rejectRequest_sent hd hans)
    · rcases h.claims b hb (envs L.other).net with hn | hr
      · rw [sameRole_of_claimsNothing hn] at hsame
        cases hsame
      · rw [sameRole_of_claims hr, beq_iff_eq] at hsame
        left
        have hway : del.session.givesWay (b.message (envs L.other).net) := by
          refine (givesWay_iff_of_claims hr).mpr ⟨?_, ?_⟩
          · exact (congrArg Core.controlling hcore).trans hsame
          · exact (congrArg Core.tiebreaker hcore).trans_lt h.larger
        rw [move_agent_self rfl, step_changesRole ⟨del, hd, _, hm, .inr ⟨hreq, hway⟩⟩]
        exact congrArg (!·) hsame

end Standoff

/-- Two sessions that hold the same role and know each other's credentials. -/
structure Rivals (d : Peers) : Prop where
  wide : ∀ x, (d.agent x).tiebreaker < 2 ^ 64
  distinct : (d.agent .left).tiebreaker ≠ (d.agent .right).tiebreaker
  sameRole : (d.agent .left).controlling = (d.agent .right).controlling
  keyed : d.Keyed
  idle : ∀ x, d.inbox x = []

theorem Rivals.standoff (h : d.Rivals) : ∃ L c, d.Standoff L c := by
  have hempty (x : Side) (b : StunBuilder) : b ∉ d.inbox x := by
    rw [h.idle]
    exact not_mem_nil
  have hstand (L : Side) (hlt : (d.agent L.other).tiebreaker < (d.agent L).tiebreaker) :
      d.Standoff L (d.agent L).controlling :=
    ⟨h.wide, hlt, rfl, fun b hb => absurd hb (hempty _ b), fun b hb => absurd hb (hempty _ b),
      fun b hb => absurd hb (hempty _ b)⟩
  rcases lt_or_gt_of_ne h.distinct with hlt | hlt
  · exact ⟨.right, _, hstand .right hlt⟩
  · exact ⟨.left, _, hstand .left hlt⟩

/-- The network delivers what the two send, each message once, and they keep their
credentials. -/
def Proper (H : Hmac) (envs : Side → Env) (d : Peers) (mv : PeerMove) : Prop :=
  d.Honest H envs mv ∧ Once mv ∧ (d.move H envs mv).Keyed

/-- A conflict of roles is over when nothing is in flight any more. -/
theorem roles_settle (H : Hmac) (envs : Side → Env) (d : Peers) (h : d.Rivals)
    (ms : List PeerMove) (hrun : Along (move H envs) (Proper H envs) d ms)
    (hord : Along (move H envs) (Orderly envs) d ms) (fs : List PeerMove) (mv : PeerMove)
    (hfs : fs ++ [mv] <+: ms) (hc : (fs.foldl (move H envs) d).Conflict H envs mv)
    (hq : (ms.foldl (move H envs) d).Quiet envs) :
    ((ms.foldl (move H envs) d).agent .left).controlling ≠
      ((ms.foldl (move H envs) d).agent .right).controlling := by
  obtain ⟨L, c, hL⟩ := h.standoff
  have hall := hrun.and hord
  have hkeep (d : Peers) (mv : PeerMove) (hp : Proper H envs d mv ∧ Orderly envs d mv)
      (hi : d.Standoff L c ∧ d.Keyed) :
      (d.move H envs mv).Standoff L c ∧ (d.move H envs mv).Keyed :=
    ⟨hi.1.move hp.1.1 hp.1.2.1, hp.1.2.2⟩
  -- up to the conflict
  have hbefore := ((hall.restrict hfs).restrict (prefix_append fs [mv])).invariant hkeep
    ⟨hL, h.keyed⟩
  have hmv := along_iff_each_step.mp hall fs mv hfs
  -- from the conflict on
  have hafter := hall.reached (I := fun d => (d.Standoff L c ∧ d.Keyed) ∧ d.Resolves L c)
    (fun d mv hp hi => ⟨hkeep d mv hp hi.1,
      hi.1.1.resolves_move hp.1.1 hp.1.2.1 hi.1.2 hp.1.2.2 hp.2 hi.2⟩) hfs
    ⟨hkeep _ mv hmv hbefore, hbefore.1.resolves_of_conflict hmv.1.1 hmv.2 hc⟩
  obtain ⟨⟨hend, -⟩, hres⟩ := hafter
  rcases hres with hres | ⟨txn, hb⟩
  · cases L with
    | left =>
      have hright : ((ms.foldl (move H envs) d).agent .right).controlling = !c := hres
      rw [hend.role, hright]
      exact (Bool.not_ne_self c).symm
    | right =>
      have hleft : ((ms.foldl (move H envs) d).agent .left).controlling = !c := hres
      rw [hend.role, hleft]
      exact Bool.not_ne_self c
  · exact absurd refuses_roleConflictMessage (hq _ _ hb).2.2

/-! ### Two controlling sessions on one network -/

instance (net : Inet) : DecidablePred (Refuses net) := fun _ => inferInstanceAs (Decidable (_ ∧ _))

instance (envs : Side → Env) : DecidablePred (Quiet envs) :=
  fun d => inferInstanceAs (Decidable (∀ x, ∀ b ∈ d.inbox x, _ ∧ _ ∧ _))

def rivals : Peers := lanStart { aggressiveNomination := true, pmtuActiveProbing := false }
  (fun _ => true) (fun | .left => 5 | .right => 9)

theorem rivals_start : rivals.Rivals := by
  constructor
  · decide +kernel
  · decide +kernel
  · decide +kernel
  · decide +kernel
  · intro x
    rfl

/-- The input keeps the credentials and delivers at most one message, for the last time. -/
def properInput (d : Peers) (i : PeerInput) : Bool :=
  i.once && (d.feed Env.lanPair i).any fun d' => decide d'.Keyed

theorem proper_of_input (d d' : Peers) (i : PeerInput) (hf : d.feed Env.lanPair i = some d')
    (h : d.properInput i = true) : Proper H Env.lanPair d (d.moveOf H i) := by
  obtain ⟨hmove, hhonest⟩ := move_of_feed hf
  simp only [properInput, hf, Bool.and_eq_true, Option.any_some, decide_eq_true_eq] at h
  refine ⟨hhonest, ?_, by rw [hmove]; exact h.2⟩
  cases i with
  | act => trivial
  | deliver x cid i again =>
    have honce : again = false := by simpa [PeerInput.once] using h.1
    exact honce
  | lose => cases h.1

def conflictInput (d : Peers) : PeerInput → Bool
  | .deliver x cid i _ =>
    let b := d.message x i
    (d.agent x).admits (Env.lanPair x) cid b && decide (b.msgType = bindingRequest) &&
      (d.agent x).sameRole (b.message (Env.lanPair x).net)
  | _ => false

private theorem conflict_of_input {i : PeerInput} (h : d.conflictInput i = true) :
    d.Conflict H Env.lanPair (d.moveOf H i) := by
  cases i with
  | deliver x cid i again =>
    simp only [conflictInput, Bool.and_eq_true, decide_eq_true_eq] at h
    exact ⟨_, rfl, _, accepted_of_admits false h.1.1, (StunBuilder.message_msgType _ _).trans h.1.2,
      h.2⟩
  | _ => cases h

theorem conflict_of_script (d : Peers) (is : List PeerInput) (i : PeerInput) (js : List PeerInput)
    (h : (d.play Env.lanPair is).any (fun d' => d'.conflictInput i) = true) (H : Hmac) :
    ∃ fs mv, fs ++ [mv] <+: d.movesOf H Env.lanPair (is ++ i :: js) ∧
      (fs.foldl (move H Env.lanPair) d).Conflict H Env.lanPair mv := by
  refine ⟨_, _, ?_, conflict_of_input (run_of_play_any h H)⟩
  rw [movesOf_append]
  refine (prefix_append_right_inj _).mpr ?_
  exact ⟨_, rfl⟩

def orderlyInput (d : Peers) : PeerInput → Bool
  | .deliver x cid i _ =>
    let b := d.message x i
    decide (Refuses (Env.lanPair x).net b →
      (d.agent x).controlling = (d.agent x.other).controlling) &&
    decide (b.msgType = bindingRequest → (⟨d.agent x, cid, false, []⟩ : Delivery).canAnswer = true)
  | _ => true

theorem orderly_of_input (d d' : Peers) (i : PeerInput) (_ : d.feed Env.lanPair i = some d')
    (h : d.orderlyInput i = true) : Orderly Env.lanPair d (d.moveOf H i) := by
  cases i with
  | deliver x cid i again =>
    simp only [orderlyInput, Bool.and_eq_true, decide_eq_true_eq] at h
    refine ⟨h.1, fun hb del hd => ?_⟩
    obtain rfl := Option.some.inj hd
    exact h.2 hb
  | _ => trivial

def refusedFirst : List PeerInput :=
  [.act .left .gather, .act .right .gather] ++ .deliver .right 6 0 false ::
    [.deliver .left 6 0 false, .deliver .left 6 0 false, .deliver .right 6 0 false,
      .deliver .right 6 0 false, .deliver .left 6 0 false, .deliver .left 6 0 false,
      .deliver .right 6 0 false]

theorem roles_settle_when_refused_first :
    let H := zeroHmac
    let d := (rivals.movesOf H Env.lanPair refusedFirst).foldl (move H Env.lanPair) rivals
    d.Quiet Env.lanPair ∧ (d.agent .left).controlling ≠ (d.agent .right).controlling := by
  intro H d
  have hplay : (rivals.play Env.lanPair refusedFirst).any
      (fun d => decide (d.Quiet Env.lanPair)) = true := by decide +kernel
  have hquiet := of_decide_eq_true (run_of_play_any hplay H)
  obtain ⟨fs, mv, hfs, hc⟩ := conflict_of_script rivals [.act .left .gather, .act .right .gather]
    (.deliver .right 6 0 false) _ (by decide +kernel) H
  exact ⟨hquiet, roles_settle H Env.lanPair rivals rivals_start _
    (along_of_play proper_of_input (by decide +kernel))
    (along_of_play orderly_of_input (by decide +kernel)) fs mv hfs hc hquiet⟩

/-- Each learns of the other's check; the weaker one gives way and both connect. Then the first
check of the weaker one arrives after all, and its refusal. -/
def lateCheck : List PeerInput :=
  [.act .left .gather, .act .right .gather] ++ .deliver .left 6 0 false ::
    [.deliver .right 6 0 false, .deliver .right 6 0 false, .deliver .left 6 0 false,
      .deliver .left 6 0 false, .deliver .right 6 1 false, .deliver .left 6 0 false,
      .deliver .right 6 0 false]

/-- The refusal of a check that was sent before the role changed makes both sessions
controlling. -/
theorem late_refusal_restores_conflict :
    ¬ ∃ H : Hmac, ∀ ms, Along (move H Env.lanPair) (Proper H Env.lanPair) rivals ms →
      ∀ fs mv, fs ++ [mv] <+: ms →
        (fs.foldl (move H Env.lanPair) rivals).Conflict H Env.lanPair mv →
        (ms.foldl (move H Env.lanPair) rivals).Quiet Env.lanPair →
        ((ms.foldl (move H Env.lanPair) rivals).agent .left).controlling ≠
          ((ms.foldl (move H Env.lanPair) rivals).agent .right).controlling := by
  rintro ⟨H, h⟩
  have hplay : (rivals.play Env.lanPair lateCheck).any (fun d => decide (d.Quiet Env.lanPair ∧
      (d.agent .left).controlling = (d.agent .right).controlling)) = true := by decide +kernel
  obtain ⟨hquiet, hsame⟩ := of_decide_eq_true (run_of_play_any hplay H)
  obtain ⟨fs, mv, hfs, hc⟩ := conflict_of_script rivals [.act .left .gather, .act .right .gather]
    (.deliver .left 6 0 false) _ (by decide +kernel) H
  exact h _ (along_of_play proper_of_input (by decide +kernel)) fs mv hfs hc hquiet hsame

end Peers

end LinkIce
