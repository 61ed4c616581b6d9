import LinkIce.Lib.TwoParty
import LinkIce.Session.Script

/-! Two sessions that check each other. What a session puts on the wire is read off its log;
what it accepts was put there by its peer. -/
namespace LinkIce
open Stun List Option

def Effect.stun? : Effect → Option StunBuilder
  | udpSend _ (.stun b) | tcpSend _ (.stun b) | relaySend _ (.stun b) => some b
  | _ => none

/-- Only an authenticated message of the peer licenses the action. -/
def Label.fromPeer : Label → Bool
  | .flip | .reject | .respond _ _ | .nominateOwn _ => true
  | _ => false

namespace Session

variable {H : Hmac} {env : Env} {A : Set Label} {s t : Session} {b : StunBuilder} {d : Delivery}
  {e : Effect} {l : Option Label}

/-! ### What a session says -/

/-- The messages that an action can send. Everything but the plain ones is signed. -/
inductive Says (env : Env) (s : Session) : Option Label → StunBuilder → Prop
  | plain {l : Option Label} {b : StunBuilder} (h : b.attrs = []) : Says env s l b
  | check {l : Option Label} {p : CheckPair} (h : p ∈ s.checkList) : Says env s l (s.checkMessage p)
  | followUp {leaves : Bool} {p : CheckPair} (h : p ∈ s.checkList) :
      Says env s (some (.pick leaves)) (s.checkMessage { p with nomineeCheckSent := true })
  | answer (txn : TransactionId) (uc : Bool)
      (h : ∃ ep cid tx relay, .requestReceived txn uc ep cid tx relay ∈ s.log) :
      Says env s (some (.respond txn uc)) (s.responseMessage txn)
  | conflict (txn : TransactionId) : Says env s (some .reject) (s.roleConflictMessage txn)
  | probe {l : Option Label} (size : ℕ) : Says env s l (s.pmtuMessage (env.txnId s.draws) size)

theorem stun?_of_sends {c : StunBuilder} (h : sends (.stun c) e) (hb : b ∈ e.stun?) : b = c := by
  cases e with
  | udpSend cid p | tcpSend cid p | relaySend ep p =>
    obtain rfl : p = .stun c := h
    exact (some.inj hb).symm
  | _ => exact h.elim

theorem attrs_of_quiet (h : e.isQuiet = true) (hb : b ∈ e.stun?) : b.attrs = [] := by
  cases e with
  | udpSend cid p | tcpSend cid p | relaySend ep p =>
    cases p with
    | raw => cases hb
    | stun c =>
      obtain rfl := some.inj hb
      exact isEmpty_iff.mp h
  | _ => cases hb

theorem speaks_of_quiet (h : e.isQuiet = true) (hb : b ∈ e.stun?) :
    s.Says env l b := .plain (attrs_of_quiet h hb)

theorem speaks_of_routine (h : e.isRoutine = true) (hb : b ∈ e.stun?) : s.Says env l b := by
  cases e with
  | udpSend | tcpSend | relaySend =>
    exact speaks_of_quiet (by simpa [Effect.isRoutine, Effect.isData] using h) hb
  | _ => cases hb

private theorem reset_speaks {s u : Session} :
    Logs (fun e => ∀ b ∈ e.stun?, s.Says env l b) u (u.reset env) := by
  obtain ⟨new, hn, hq⟩ := reset_log env u
  refine ⟨.setState .new :: (new ++ [.restarted]), by simp [hn], fun e he b hb => ?_⟩
  simp only [mem_cons, mem_append, not_mem_nil, or_false] at he
  rcases he with rfl | he | rfl
  · cases hb
  · exact speaks_of_quiet (hq e he) hb
  · cases hb

/-- An action sends nothing else. -/
theorem act_speaks (h : Act env s l t) : Logs (fun e => ∀ b ∈ e.stun?, s.Says env l b) s t := by
  have hsends {c : StunBuilder} (hc : s.Says env l c) {e : Effect} (he : sends (.stun c) e) :
      ∀ b ∈ e.stun?, s.Says env l b := by
    intro b hb
    rwa [stun?_of_sends he hb]
  cases h with
  | quiet h | work h | release h =>
    exact (Logs.of_keepsCore h.toKeepsCore).mono fun _ he _ => speaks_of_quiet he
  | deliver h => exact (Logs.of_keepsCore h.toKeepsCore).mono fun _ he _ => speaks_of_routine he
  | turnInput h => exact (Logs.of_keepsCore h).mono fun _ he _ => speaks_of_routine he
  | gather | waitRemote | startChecking | close | succeed | received =>
    exact .emit _ (by simp [Effect.stun?])
  | publish | announce | probing | refresh | keepalive | lapse =>
    exact .emit _ (by simp [Effect.stun?])
  | recover => exact ⟨[.setState .checking, .consentReset], rfl, by simp [Effect.stun?]⟩
  | rebuild => exact .of_log_eq (buildCheckList_log)
  | check i | liteCheck i =>
    refine (sendCheck_logs).mono ?_
    rintro e ⟨p, hp, he⟩
    exact hsends (.check (mem_of_getElem? hp)) he
  | pick =>
    refine (pickNominee_logs).mono ?_
    rintro e ⟨i, p, _, hp, he⟩
    exact hsends (.followUp (mem_of_getElem? hp)) he
  | respond _ _ _ txn uc hr =>
    obtain ⟨ep, cid, tx, relay, hr⟩ := hr
    have hmem := takeWhile_subset _ hr
    exact (reply_logs).mono fun e he =>
      hsends (.answer txn uc ⟨ep, cid, tx, relay, hmem⟩) he
  | reject _ _ _ txn => exact (reply_logs).mono fun e he => hsends (.conflict txn) he
  | probe cid size => exact .emit _ (hsends (.probe size) (e := .udpSend cid _) rfl)
  | nominateOwn | nominateNow =>
    exact ⟨[.setState .connected, .nominated ..], rfl, by simp [Effect.stun?]⟩
  | nominateDeferred i p =>
    exact ⟨[.setState .connected, .nominated ..], rfl, by simp [Effect.stun?]⟩
  | exhaust | expire | loseConsent =>
    exact ⟨[.onFailed, .setState .failed, s.failure _], rfl, by simp [Effect.stun?, failure]⟩
  | restart => exact reset_speaks
  | autoRestart now =>
    have hcount : Logs (fun e => ∀ b ∈ e.stun?, s.Says env (some .restart) b) s
        (s.countAutoRestart now) := .emit _ (by simp [Effect.stun?])
    exact hcount.trans reset_speaks
  | _ => exact .of_log_eq rfl

theorem steps_speaks (h : Steps env A s t) :
    Logs (fun e => ∀ b ∈ e.stun?, ∃ u l, Steps env A s u ∧ u.log <:+ t.log ∧ (∀ a ∈ l, a ∈ A) ∧
      u.Says env l b) s t := by
  induction h with
  | refl => exact .refl s
  | @tail u v l hp hact hl ih =>
    have hgrows := act_log_suffix hact
    refine (ih.mono fun e he b hb => ?_).trans
      ((act_speaks hact).mono fun e he b hb => ⟨u, l, hp, hgrows, hl, he b hb⟩)
    obtain ⟨w, k, hw, hlog, hk, hspeaks⟩ := he b hb
    exact ⟨w, k, hw, hlog.trans hgrows, hk, hspeaks⟩

def logged (s t : Session) : List Effect := t.log.take (t.log.length - s.log.length)

def sent (s t : Session) : List StunBuilder := (logged s t).filterMap Effect.stun?

theorem logged_eq {new : List Effect} (h : t.log = new ++ s.log) : logged s t = new := by
  rw [logged, h, length_append, Nat.add_sub_cancel, take_left]

theorem Logs.mem_sent {P : Effect → Prop} (h : Logs P s t) (hb : b ∈ sent s t) :
    ∃ e, P e ∧ b ∈ e.stun? := by
  obtain ⟨new, hn, hP⟩ := h
  rw [sent, logged_eq hn] at hb
  obtain ⟨e, he, hbe⟩ := mem_filterMap.mp hb
  exact ⟨e, hP e he, hbe⟩

/-- What a session sends in one step is said by a session on the way. -/
theorem mem_sent_step {e : Event} (hb : b ∈ sent s (s.step H env e)) :
    ∃ u l, Steps env (s.allowed H env e) s u ∧ u.log <:+ (s.step H env e).log ∧
      (∀ a ∈ l, a ∈ s.allowed H env e) ∧ u.Says env l b := by
  obtain ⟨x, hx, hbx⟩ := (steps_speaks (step_steps H env s e)).mem_sent hb
  exact hx b hbx

theorem checkMessage_msgType {p : CheckPair} : (s.checkMessage p).msgType = bindingRequest := by
  unfold checkMessage
  dsimp only
  split_ifs <;> rfl

theorem pmtuMessage_msgType {txn : TransactionId} {size : ℕ} :
    (s.pmtuMessage txn size).msgType = bindingRequest := by
  unfold pmtuMessage StunBuilder.addPaddingTo
  dsimp only
  split_ifs <;> rfl

/-! ### What a session accepts -/

/-- The session that receives the bytes is the one before the event, up to bookkeeping. -/
theorem inbound_core {e : Event} (h : d ∈ s.inbound e) : d.session.core = s.core := by
  obtain ⟨⟨l, -, hw⟩, -⟩ := step_inbound zeroHmac .lan h
  exact hw.core

theorem allowed_inbound {e : Event} {a : Label} (h : a ∈ s.allowed H env e)
    (ha : a.fromPeer = true) :
    ∃ d ∈ s.inbound e, ∃ m ∈ d.accepted H env, a ∈ d.session.stunAllowed env m d.cid d.fromTcp := by
  rcases h with h | ⟨d, hd, h⟩
  · cases a with
    | flip | reject | respond | nominateOwn =>
      cases e with
      | task t => cases t <;> exact h.2.elim
      | _ => exact h.elim
    | _ => cases ha
  · rcases h with ⟨h, -⟩ | ⟨m, -, h⟩ | ⟨m, hm, h⟩
    · cases a with
      | deliver => cases ha
      | _ => cases h
    · cases a with
      | flip | reject | respond | nominateOwn => exact h.elim
      | _ => cases ha
    · exact ⟨d, hd, m, hm, h⟩

theorem step_accepted {e : Event} {m : StunMessage} (hd : d ∈ s.inbound e)
    (hm : m ∈ d.accepted H env) :
    s.step H env e = d.session.onStun env m d.cid d.fromTcp :=
  (step_inbound H env hd).2.trans (onCarrierData_accepted hm)

end Session

/-! ### Runs of two sessions -/

/-- Two sessions and the STUN messages on their way between them. -/
abbrev Peers := Duo Session StunBuilder

abbrev PeerMove := NetMove Event StunBuilder

namespace Peers

variable {H : Hmac} {envs : Side → Env} {d : Peers} {mv : PeerMove} {x : Side} {e : Event}
  {b : StunBuilder}

/-- Each side has an environment of its own. -/
def move (H : Hmac) (envs : Side → Env) (d : Peers) (mv : PeerMove) : Peers :=
  Duo.move (fun x => Session.step H (envs x)) Session.sent d mv

theorem move_agent_self (h : mv.event = some (x, e)) :
    (d.move H envs mv).agent x = (d.agent x).step H (envs x) e := Duo.move_agent_self h

theorem move_agent_other (h : mv.event = some (x, e)) :
    (d.move H envs mv).agent x.other = d.agent x.other := Duo.move_agent_other h

/-- What happens at its peer does not change an agent. -/
theorem move_agent_of_other (h : mv.event = some (x.other, e)) :
    (d.move H envs mv).agent x = d.agent x := by
  have hother : (d.move H envs mv).agent x.other.other = d.agent x.other.other :=
    move_agent_other h
  rwa [Side.other_other] at hother

theorem mem_move_self (h : mv.event = some (x, e)) (hb : b ∈ (d.move H envs mv).inbox x) :
    b ∈ d.inbox x := Duo.mem_move_self h hb

theorem move_inbox_other (h : mv.event = some (x, e)) :
    (d.move H envs mv).inbox x.other =
      Session.sent (d.agent x) ((d.agent x).step H (envs x) e) ++ d.inbox x.other :=
  Duo.move_inbox_other h

theorem move_inbox_of_other (h : mv.event = some (x.other, e)) :
    (d.move H envs mv).inbox x =
      Session.sent (d.agent x.other) ((d.agent x.other).step H (envs x.other) e) ++ d.inbox x := by
  have hother : (d.move H envs mv).inbox x.other.other = _ := move_inbox_other h
  rwa [Side.other_other] at hother

theorem mem_move (hb : b ∈ (d.move H envs mv).inbox x) :
    b ∈ d.inbox x ∨ ∃ e, mv.event = some (x.other, e) ∧
      b ∈ Session.sent (d.agent x.other) ((d.agent x.other).step H (envs x.other) e) :=
  Duo.mem_move hb

/-- Every agent is as before, or has taken a step. -/
theorem move_agent :
    (d.move H envs mv).agent x = d.agent x ∨ ∃ e, mv.event = some (x, e) ∧
      (d.move H envs mv).agent x = (d.agent x).step H (envs x) e := by
  cases hy : mv.event with
  | none =>
    cases mv with
    | lose => exact .inl rfl
    | _ => cases hy
  | some ye =>
    obtain ⟨y, e⟩ := ye
    rcases x.eq_or_eq_other y with rfl | rfl
    · exact .inr ⟨e, rfl, move_agent_self hy⟩
    · exact .inl (move_agent_of_other hy)

/-- Each of the two knows the credentials of the other. -/
def Keyed (d : Peers) : Prop :=
  ∀ x, (d.agent x).remoteUfrag = (d.agent x.other).localUfrag ∧
    (d.agent x).remotePwd = (d.agent x.other).localPwd

instance : DecidablePred Keyed := fun _ => inferInstanceAs (Decidable (∀ _, _ ∧ _))

/-- Nobody else can sign for the two sessions. What is delivered is in flight, comes with the
event and fits into a datagram; everything else that arrives is not accepted. -/
def Honest (H : Hmac) (envs : Side → Env) (d : Peers) : PeerMove → Prop
  | .act x e => ∀ del ∈ (d.agent x).inbound e, del.accepted H (envs x) = none
  | .deliver x b _ e => b ∈ d.inbox x ∧ b.fits = true ∧
    ∃ del ∈ (d.agent x).inbound e, del.isTurn = false ∧ del.data = b.build H
  | .lose x b => b ∈ d.inbox x

/-- What an agent accepts comes from the other one. -/
theorem Honest.accepted (h : d.Honest H envs mv) (hx : mv.event = some (x, e)) {del : Delivery}
    {m : StunMessage} (hd : del ∈ (d.agent x).inbound e) (hm : m ∈ del.accepted H (envs x)) :
    ∃ b again, mv = .deliver x b again e ∧ b ∈ d.inbox x ∧ m = b.message (envs x).net ∧
      b.attrs ≠ [] := by
  cases mv with
  | act y f =>
    obtain ⟨rfl, rfl⟩ := Prod.mk.inj (some.inj hx)
    rw [h del hd] at hm
    cases hm
  | deliver y b again f =>
    obtain ⟨rfl, rfl⟩ := Prod.mk.inj (some.inj hx)
    obtain ⟨hb, hfits, del', hd', hturn, hdata⟩ := h
    obtain rfl := some.inj (hd'.symm.trans hd)
    unfold Delivery.accepted at hm
    rw [hturn, if_neg Bool.false_ne_true, hdata, StunBuilder.parseStun_build H _ b hfits] at hm
    obtain ⟨hmb, hgate⟩ := filter_eq_some_iff.mp hm
    have hmb := some.inj hmb
    refine ⟨b, again, rfl, hb, hmb.symm, fun hnil => ?_⟩
    simp [Session.authenticated, ← hmb, StunBuilder.message, hnil] at hgate
  | lose => cases hx

/-- No message is lost, and none arrives twice. -/
def Once : PeerMove → Prop
  | .act _ _ => True
  | .deliver _ _ again _ => again = false
  | .lose _ _ => False

theorem Once.event (h : Once mv) : ∃ x e, mv.event = some (x, e) := by
  cases mv with
  | act x e | deliver x b again e => exact ⟨x, e, rfl⟩
  | lose => exact h.elim

end Peers

/-! ### Scripts -/

namespace Session

variable {b : StunBuilder} {cid : Cid} {env : Env} {s : Session} {H : Hmac}

theorem onCarrierData_plain {fromTcp : Bool} (hb : b.attrs = [])
    (hr : b.msgType = bindingRequest) (ht : isTurnServer s.turn cid = false)
    (hp : isTurnServer s.turnBackupProbe cid = false) :
    s.onCarrierData H env cid fromTcp (b.build H) = s := by
  have hfits : b.fits = true := by
    simp [StunBuilder.fits, StunBuilder.attrsSize, hb, hr, bindingRequest]
  have hm : b.message env.net = { msgType := b.msgType, txnId := b.txnId } := by
    simp [StunBuilder.message, hb]
  have hg : s.isGatherResponse (b.message env.net) = false := by
    simp [isGatherResponse, hm, hr, bindingRequest, bindingResponse]
  have ha : s.authenticated H (b.message env.net) (b.build H) = false := by
    simp [authenticated, hm]
  simp [onCarrierData, ht, hp, StunBuilder.parseStun_build H env.net b hfits, hg, ha]

/-- What becomes of the session when it receives the message, without the digest function. -/
def receive (env : Env) (cid : Cid) (b : StunBuilder) (s : Session) : Option Session :=
  if s.admits env cid b then some (s.onStun env (b.message env.net) cid false)
  else if b.attrs = [] ∧ b.msgType = bindingRequest ∧ isTurnServer s.turn cid = false ∧
      isTurnServer s.turnBackupProbe cid = false then some s
  else none

theorem step_of_receive {s t : Session} (h : s.receive env cid b = some t) :
    s.step H env (.udpData cid (b.build H)) = t ∧
      (⟨s, cid, false, b.build H⟩ : Delivery).isTurn = false := by
  unfold receive at h
  split_ifs at h with ha hp
  · obtain rfl := some.inj h
    have hstep := onCarrierData_build (H := H) false ha
    simp only [admits, Bool.and_eq_true, Bool.not_eq_true'] at ha
    exact ⟨hstep, by simp [Delivery.isTurn, ha.1.2, ha.2]⟩
  · obtain rfl := some.inj h
    obtain ⟨hb, hr, ht, hp⟩ := hp
    exact ⟨onCarrierData_plain hb hr ht hp, by simp [Delivery.isTurn, ht, hp]⟩

end Session

/-- An input of a scripted run of two sessions. Messages are named by their place in the inbox. -/
inductive PeerInput
  | act (x : Side) (e : Event)
  | deliver (x : Side) (cid : Cid) (i : ℕ) (again : Bool)
  | lose (x : Side) (i : ℕ)

namespace Peers

variable {envs : Side → Env} {d d' : Peers} {is : List PeerInput} {H : Hmac}

def message (x : Side) (i : ℕ) (d : Peers) : StunBuilder :=
  (d.inbox x).getD i ⟨0, Block.zero 12, []⟩

def moveOf (H : Hmac) (d : Peers) : PeerInput → PeerMove
  | .act x e => .act x e
  | .deliver x cid i again =>
    .deliver x (d.message x i) again (.udpData cid ((d.message x i).build H))
  | .lose x i => .lose x (d.message x i)

/-- One input, without the digest function; `none` when the input depends on it or names no
message. -/
def feed (envs : Side → Env) (d : Peers) : PeerInput → Option Peers
  | .act x e =>
    if e.isLocal then
      some (d.put Session.sent x ((d.agent x).step zeroHmac (envs x) e))
    else none
  | .deliver x cid i again =>
    let b := d.message x i
    if b ∈ d.inbox x ∧ b.fits = true then
      ((d.agent x).receive (envs x) cid b).map fun t =>
        (if again then d else d.drop x b).put Session.sent x t
    else none
  | .lose x i => if d.message x i ∈ d.inbox x then some (d.drop x (d.message x i)) else none

theorem move_of_feed {i : PeerInput} (h : d.feed envs i = some d') :
    d.move H envs (d.moveOf H i) = d' ∧ d.Honest H envs (d.moveOf H i) := by
  cases i with
  | act x e =>
    simp only [feed] at h
    split_ifs at h with he
    obtain rfl := some.inj h
    have hstep : (d.agent x).step H (envs x) e =
        (d.agent x).step zeroHmac (envs x) e := Session.step_isLocal he _ _
    refine ⟨congrArg (d.put Session.sent x) hstep, fun del hdel => ?_⟩
    rw [Session.inbound_isLocal he] at hdel
    cases hdel
  | deliver x cid i again =>
    simp only [feed] at h
    by_cases hb : d.message x i ∈ d.inbox x ∧ (d.message x i).fits = true
    · rw [if_pos hb] at h
      obtain ⟨t, ht, rfl⟩ := map_eq_some_iff.mp h
      obtain ⟨hstep, hturn⟩ := Session.step_of_receive ht
      exact ⟨congrArg ((if again then d else d.drop x (d.message x i)).put Session.sent x) hstep,
        hb.1, hb.2, _, rfl, hturn, rfl⟩
    · rw [if_neg hb] at h
      cases h
  | lose x i =>
    simp only [feed] at h
    split_ifs at h with hb
    exact ⟨some.inj h, hb⟩

def play (envs : Side → Env) (d : Peers) : List PeerInput → Option Peers
  | [] => some d
  | i :: is => (d.feed envs i).bind fun d' => d'.play envs is

def movesOf (H : Hmac) (envs : Side → Env) (d : Peers) : List PeerInput → List PeerMove
  | [] => []
  | i :: is => d.moveOf H i :: (d.move H envs (d.moveOf H i)).movesOf H envs is

theorem movesOf_append {is js : List PeerInput} :
    d.movesOf H envs (is ++ js) = d.movesOf H envs is ++
      ((d.movesOf H envs is).foldl (move H envs) d).movesOf H envs js := by
  induction is generalizing d with
  | nil => rfl
  | cons i is ih =>
    rw [cons_append, movesOf, ih]
    rfl

theorem run_of_play (h : d.play envs is = some d') (H : Hmac) :
    (d.movesOf H envs is).foldl (move H envs) d = d' := by
  induction is generalizing d with
  | nil => exact some.inj h
  | cons i is ih =>
    obtain ⟨u, hu, hd⟩ := bind_eq_some_iff.mp h
    rw [movesOf, foldl_cons, (move_of_feed hu).1]
    exact ih hd

def playAlong (envs : Side → Env) (Q : Peers → PeerInput → Bool) (d : Peers) :
    List PeerInput → Bool
  | [] => true
  | i :: is => Q d i && (d.feed envs i).any fun d' => d'.playAlong envs Q is

theorem along_of_play {P : Peers → PeerMove → Prop} {Q : Peers → PeerInput → Bool}
    (hQ : ∀ d d' i, d.feed envs i = some d' → Q d i = true → P d (d.moveOf H i))
    (h : d.playAlong envs Q is = true) : Along (move H envs) P d (d.movesOf H envs is) := by
  induction is generalizing d with
  | nil => trivial
  | cons i is ih =>
    simp only [playAlong, Bool.and_eq_true] at h
    cases hf : d.feed envs i with
    | none => simp [hf] at h
    | some d' =>
      rw [hf] at h
      refine ⟨hQ d d' i hf h.1, ?_⟩
      rw [(move_of_feed hf).1]
      exact ih h.2

/-- What the script shows of the last state holds for every digest function. -/
theorem run_of_play_any {p : Peers → Bool} (h : (d.play envs is).any p = true) (H : Hmac) :
    p ((d.movesOf H envs is).foldl (move H envs) d) = true := by
  cases hd : d.play envs is with
  | none => simp [hd] at h
  | some d' =>
    rw [run_of_play hd H]
    simpa [hd] using h

end Peers

def PeerInput.once : PeerInput → Bool
  | act _ _ => true
  | deliver _ _ _ again => !again
  | lose _ _ => false

/-! ### A pair on the network of `Env.lan` -/

/-- Two hosts whose clocks stand still, so that nothing is sent again. -/
def Env.lanPair : Side → Env
  | .left => { Env.lan with clock := fun _ => 10 ^ 6 }
  | .right =>
    { Env.lan with
      clock := fun _ => 10 ^ 6
      txnId := fun n => Block.ofBytes 12 (be32 (n + 1000))
      ufrag := fun n => be32 (n + 1000)
      pwd := fun n => be32 (n + 1000)
      listenPort := fun _ => 6000
      interfaces := fun _ => some [⟨true, false, .ipv4, Block.ofBytes 16 [10, 0, 0, 2], false⟩] }

namespace Peers

def lanHost : Side → Candidate
  | .left => Session.hostCandidate .ipv4 (Block.ofBytes 16 [10, 0, 0, 1]) 5000 65535
  | .right => Session.peerHost

def lanStart (cfg : IceConfig) (controlling : Side → Bool) (tiebreaker : Side → ℕ) : Peers where
  agent x := (Session.create (Env.lanPair x) cfg {} (controlling x) (tiebreaker x)).setRemote
    (Env.lanPair x) ((Env.lanPair x.other).ufrag 0) ((Env.lanPair x.other).pwd 0) [lanHost x.other]
  inbox _ := []

end Peers

end LinkIce
